/-
# What a match in Warsong Gulch keeps

Every path of `BattlegroundWS.cpp` writes the state of a flag and its keeper together, and
a participant who goes away drops his flag.  So in each state of a run in which the match is
in progress, a flag is carried exactly if it has a keeper, who is a participant of the other
team and online.  A flag at its base is there to be clicked on unless the other one waits:
a capture takes both objects away, and the end of the wait brings both back.

A point is scored by the team that carries the flag of the other while its own is at its
base, and the end of the match, which comes once, goes to the team with more points or, if
both have some, to the one that captured last.
-/

import ZerosCore.Battlegrounds.WarsongGulch

namespace ZerosCore.Battlegrounds.WarsongGulch

open Lib List State

/-! ### What a match should keep -/

/-- What holds of the flag of a team while the match is in progress. -/
structure FlagRight (s : State) (flag : Team) : Prop where
  carried : s.flagState flag = .onPlayer ↔ s.flagKeepers flag ≠ none
  /-- The keeper is an online participant of the other team, and keeps no other flag. -/
  keeper : ∀ g, s.flagKeepers flag = some g →
    (∃ m, s.players g = some m ∧ m.online = true ∧ m.team = flag.other) ∧
      s.flagKeepers flag.other ≠ some g
  /-- The object at the base is there unless the other flag waits. -/
  base : s.flagState flag = .onBase → s.spawned flag = true ∨ s.flagState flag.other = .waitRespawn

/-- A player of a team carries the flag of the other one. -/
def Carries (s : State) (team : Team) : Prop :=
  ∃ g m, s.flagKeepers team.other = some g ∧ s.players g = some m ∧ m.team = team

/-- The scores stay, or one team gets a point for the flag it carries while its own is at
its base, and is noted as the last to have captured. -/
def ScoresRight (s t : State) : Prop :=
  t.teamScores = s.teamScores ∧ t.lastFlagCaptureTeam = s.lastFlagCaptureTeam ∨
    ∃ team, s.flagState team = .onBase ∧ Carries s team ∧
      t.teamScores = (fun other => if other = team then s.teamScores team + 1
        else s.teamScores other) ∧
      t.lastFlagCaptureTeam = some team

/-- The winner has the higher score, or captured last if the scores are equal and not
zero. -/
def Ended.Right (e : Ended) : Prop :=
  (e.horde < e.alliance → e.winner = some .alliance) ∧
    (e.alliance < e.horde → e.winner = some .horde) ∧
    (e.alliance = e.horde → e.winner = if e.alliance = 0 then none else e.lastFlagCaptureTeam)

/-- What a match keeps. -/
structure MatchRight (s : State) : Prop where
  flag : s.status = .inProgress → ∀ flag, FlagRight s flag
  score : ∀ team, s.teamScores team ≤ maxTeamScore
  once : s.notices.length ≤ 1
  winner : ∀ e ∈ s.notices, e.Right

/-! ### The invariant -/

variable {s t : State} {guid g : Guid} {team flag : Team} {m : Member}

@[simp] theorem other_other (team : Team) : team.other.other = team := by cases team <;> rfl

@[simp] theorem other_ne (team : Team) : team.other ≠ team := by cases team <;> decide

theorem eq_other_of_ne (h : team ≠ flag) : team = flag.other := by
  cases team <;> cases flag <;> first | rfl | exact absurd rfl h

/-- What holds of a match besides: it has not ended before it is over, somebody captured
if somebody scored, and before it begins nothing has happened. -/
structure Inv (s : State) : Prop extends MatchRight s where
  notOver : s.status ≠ .waitLeave → s.notices = [] ∧ ∀ team, s.teamScores team < maxTeamScore
  last : s.lastFlagCaptureTeam = none → ∀ team, s.teamScores team = 0
  fresh : s.status = .waitJoin → ∀ flag, s.flagState flag = .onBase ∧ s.flagKeepers flag = none

/-- A part of a request that leaves the scores and the notices alone. -/
structure Quiet (s t : State) : Prop where
  status : t.status = s.status
  teamScores : t.teamScores = s.teamScores
  lastFlagCaptureTeam : t.lastFlagCaptureTeam = s.lastFlagCaptureTeam
  notices : t.notices = s.notices

theorem Quiet.refl (s : State) : Quiet s s := ⟨rfl, rfl, rfl, rfl⟩

theorem Inv.quiet (h : Inv s) (hq : Quiet s t)
    (hflag : t.status = .inProgress → ∀ flag, FlagRight t flag)
    (hfresh : t.status = .waitJoin → ∀ flag, t.flagState flag = .onBase ∧
      t.flagKeepers flag = none) : Inv t where
  flag := hflag
  score := hq.teamScores ▸ h.score
  once := hq.notices ▸ h.once
  winner := hq.notices ▸ h.winner
  notOver hs := by
    rw [hq.notices, hq.teamScores]
    exact h.notOver (hq.status ▸ hs)
  last hl := by
    rw [hq.teamScores]
    exact h.last (hq.lastFlagCaptureTeam ▸ hl)
  fresh := hfresh

theorem right_timeWinner (s : State) :
    Ended.Right ⟨s.timeWinner, s.teamScores .alliance, s.teamScores .horde,
      s.lastFlagCaptureTeam⟩ := by
  unfold timeWinner Ended.Right
  dsimp only
  refine ⟨fun hlt => ?_, fun hlt => ?_, fun heq => ?_⟩
  · rw [if_neg (by omega)]
    by_cases hzero : s.teamScores .horde = 0
    · rw [if_pos hzero]
    · rw [if_neg hzero, if_neg (by omega), if_neg (by omega)]
  · by_cases hzero : s.teamScores .alliance = 0
    · rw [if_pos hzero, if_neg (by omega)]
    · rw [if_neg hzero, if_neg (by omega), if_neg (by omega), if_pos hlt]
  by_cases hzero : s.teamScores .alliance = 0
  · rw [if_pos hzero, if_pos (by omega), if_pos hzero]
  · rw [if_neg hzero, if_neg (by omega), if_pos heq.symm, if_neg hzero]

/-- **The end of a match.** -/
theorem inv_endBattleground (hscore : ∀ team, s.teamScores team ≤ maxTeamScore)
    (hlast : s.lastFlagCaptureTeam = none → ∀ team, s.teamScores team = 0)
    (hs : s.notices = []) {winner : Option Team}
    (hwinner : Ended.Right ⟨winner, s.teamScores .alliance, s.teamScores .horde,
      s.lastFlagCaptureTeam⟩) : Inv (s.endBattleground winner) := by
  unfold endBattleground
  rw [hs, nil_append]
  refine ⟨⟨nofun, hscore, le_rfl, fun e he => ?_⟩,
    fun hne => absurd rfl hne, hlast, nofun⟩
  rw [mem_singleton.mp he]
  exact hwinner

/-! ### One flag changes -/

section

variable (h : ∀ f, FlagRight s f)

include h

/-- **A flag changes its state and keeper** and the objects at the bases may change. -/
theorem flags_update (t : State) (flag : Team) (state : FlagState)
    (keeper : Option Guid) (hplayers : t.players = s.players)
    (hstate : ∀ f, t.flagState f = if f = flag then state else s.flagState f)
    (hkeeper : ∀ f, t.flagKeepers f = if f = flag then keeper else s.flagKeepers f)
    (hcarried : state = .onPlayer ↔ keeper ≠ none) (hmember : ∀ g, keeper = some g →
      ∃ m, s.players g = some m ∧ m.online = true ∧ m.team = flag.other)
    (hbase : state = .onBase → t.spawned flag = true ∨ s.flagState flag.other = .waitRespawn)
    (hother : s.flagState flag.other = .onBase →
      t.spawned flag.other = true ∨ state = .waitRespawn) (f : Team) : FlagRight t f := by
  have hapart {g : Guid} (hg : keeper = some g) : s.flagKeepers flag.other ≠ some g := by
    intro hog
    obtain ⟨m, hm, -, hteam⟩ := hmember g hg
    obtain ⟨⟨m', hm', -, hteam'⟩, -⟩ := (h flag.other).keeper g hog
    rw [hm] at hm'
    cases hm'
    rw [hteam] at hteam'
    simp at hteam'
  have hflagState : t.flagState flag = state := (hstate flag).trans (if_pos rfl)
  have hflagKeeper : t.flagKeepers flag = keeper := (hkeeper flag).trans (if_pos rfl)
  have hotherState : t.flagState flag.other = s.flagState flag.other :=
    (hstate flag.other).trans (if_neg (by simp))
  have hotherKeeper : t.flagKeepers flag.other = s.flagKeepers flag.other :=
    (hkeeper flag.other).trans (if_neg (by simp))
  by_cases hf : f = flag
  · subst hf
    refine ⟨?_, fun g hg => ?_, fun hs => ?_⟩
    · rw [hflagState, hflagKeeper]
      exact hcarried
    · rw [hflagKeeper] at hg
      rw [hplayers, hotherKeeper]
      exact ⟨hmember g hg, hapart hg⟩
    rw [hotherState]
    exact hbase (hflagState.symm.trans hs)
  obtain rfl := eq_other_of_ne hf
  refine ⟨?_, fun g hg => ?_, fun hs => ?_⟩
  · rw [hotherState, hotherKeeper]
    exact (h flag.other).carried
  · rw [hotherKeeper] at hg
    rw [hplayers, other_other, hflagKeeper]
    refine ⟨?_, fun hkg => hapart hkg hg⟩
    have hmem := ((h flag.other).keeper g hg).1
    rwa [other_other] at hmem
  rw [other_other, hflagState]
  exact hother (hotherState.symm.trans hs)

theorem spawned_other (hs : s.flagState flag ≠ .waitRespawn)
    (ho : s.flagState flag.other = .onBase) : s.spawned flag.other = true := by
  have hbase := (h flag.other).base ho
  rw [other_other] at hbase
  exact hbase.resolve_right hs

theorem flags_pickUp (hm : s.players guid = some m)
    (honline : m.online = true) (hteam : m.team = flag.other)
    (hs : s.flagState flag ≠ .waitRespawn) (f : Team) : FlagRight (s.pickUp flag guid) f := by
  refine flags_update h (s.pickUp flag guid) flag .onPlayer (some guid) rfl
    (fun _ => rfl) (fun _ => rfl) (by simp) (fun g hg => ?_) nofun (fun ho => ?_) f
  · cases hg
    exact ⟨m, hm, honline, hteam⟩
  refine .inl ((if_neg (by simp)).trans ?_)
  exact spawned_other h hs ho

theorem flags_return (t : State) (hs : s.flagState flag = .onGround)
    (hp : t.players = s.players) (hstate : t.flagState = (s.setFlagState flag .onBase).flagState)
    (hkeeper : t.flagKeepers = s.flagKeepers)
    (hspawned : t.spawned = (s.spawnFlag flag true).spawned) (f : Team) : FlagRight t f := by
  have hnone : s.flagKeepers flag = none := by
    by_contra hne
    have hcarried := (h flag).carried.mpr hne
    rw [hs] at hcarried
    cases hcarried
  refine flags_update h t flag .onBase none hp
    (fun f => by rw [hstate]; rfl) (fun f => ?_) (by simp) nofun (fun _ => ?_)
    (fun ho => ?_) f
  · rw [hkeeper]
    split
    · rename_i hf
      rw [hf, hnone]
    · rfl
  · rw [hspawned]
    exact .inl (if_pos rfl)
  rw [hspawned]
  exact .inl ((if_neg (by simp)).trans (spawned_other h (by rw [hs]; simp) ho))

theorem flags_dropped (hs : s.status = .inProgress) (guid : Guid)
    (team f : Team) : FlagRight (s.eventPlayerDroppedFlag guid team) f := by
  unfold eventPlayerDroppedFlag
  split
  · exact h f
  rename_i hkeeper
  rw [not_not] at hkeeper
  rw [if_neg (not_not.mpr hs)]
  have hcarried := (h team.other).carried.mpr (by rw [hkeeper]; simp)
  refine flags_update h { (s.setFlagPicker team.other none).setFlagState team.other .onGround with
      flagsDropTimer := fun t => if t = team.other then flagDropTime else s.flagsDropTimer t }
    team.other .onGround none rfl (fun _ => rfl) (fun _ => rfl) (by simp) nofun nofun
    (fun ho => ?_) f
  have hspawned : s.spawned team.other.other = true := spawned_other h (by rw [hcarried]; simp) ho
  exact .inl hspawned

end

theorem keeper_dropped (guid : Guid) (team : Team) :
    (s.eventPlayerDroppedFlag guid team).flagKeepers team.other ≠ some guid ∧
      ∀ f, (s.eventPlayerDroppedFlag guid team).flagKeepers f = s.flagKeepers f ∨
        (s.eventPlayerDroppedFlag guid team).flagKeepers f = none := by
  unfold eventPlayerDroppedFlag
  split
  · rename_i hne
    exact ⟨hne, fun _ => .inl rfl⟩
  have hset (f : Team) : (s.setFlagPicker team.other none).flagKeepers f = s.flagKeepers f ∨
      (s.setFlagPicker team.other none).flagKeepers f = none := by
    by_cases hf : f = team.other
    · exact .inr (if_pos hf)
    · exact .inl (if_neg hf)
  have hnone : (s.setFlagPicker team.other none).flagKeepers team.other = none := if_pos rfl
  split
  · exact ⟨by rw [hnone]; simp, hset⟩
  refine ⟨?_, hset⟩
  have hsame : ({ (s.setFlagPicker team.other none).setFlagState team.other .onGround with
      flagsDropTimer := fun t => if t = team.other then flagDropTime
        else s.flagsDropTimer t } : State).flagKeepers team.other = none := hnone
  rw [hsame]
  simp

theorem quiet_dropped (s : State) (guid : Guid) (team : Team) :
    Quiet s (s.eventPlayerDroppedFlag guid team) := by
  unfold eventPlayerDroppedFlag
  split
  · exact .refl s
  dsimp only
  split <;> exact ⟨rfl, rfl, rfl, rfl⟩

theorem flags_clickedOnBase (h : ∀ f, FlagRight s f) (hm : s.players guid = some m)
    (honline : m.online = true) (target : State.Target) (flag f : Team) :
    FlagRight (s.clickedOnBase guid m.team target flag) f := by
  unfold clickedOnBase
  split
  · rename_i hclick
    exact flags_pickUp h hm honline hclick.1 (by rw [hclick.2.1]; simp) f
  · exact h f

theorem flags_clickedOnGround (h : ∀ f, FlagRight s f) (hm : s.players guid = some m)
    (honline : m.online = true) (target : State.Target) (flag f : Team) :
    FlagRight (s.clickedOnGround guid m.team target flag) f := by
  unfold clickedOnGround
  split
  · rename_i hclick
    split
    · exact flags_return h ((s.respawnFlag flag false).spawnFlag flag true) hclick.1 rfl rfl rfl rfl f
    rename_i hteam
    exact flags_pickUp h hm honline (eq_other_of_ne hteam) (by rw [hclick.1]; simp) f
  · exact h f

theorem quiet_clickedOnBase (s : State) (guid : Guid) (team : Team) (target : State.Target)
    (flag : Team) : Quiet s (s.clickedOnBase guid team target flag) ∧
      (s.clickedOnBase guid team target flag).players = s.players := by
  unfold clickedOnBase
  split
  · exact ⟨⟨rfl, rfl, rfl, rfl⟩, rfl⟩
  · exact ⟨.refl s, rfl⟩

theorem quiet_clickedOnGround (s : State) (guid : Guid) (team : Team) (target : State.Target)
    (flag : Team) : Quiet s (s.clickedOnGround guid team target flag) ∧
      (s.clickedOnGround guid team target flag).players = s.players := by
  unfold clickedOnGround
  split
  · split <;> exact ⟨⟨rfl, rfl, rfl, rfl⟩, rfl⟩
  · exact ⟨.refl s, rfl⟩

theorem Quiet.trans {u : State} (h : Quiet s t) (h' : Quiet t u) : Quiet s u :=
  ⟨h'.status.trans h.status, h'.teamScores.trans h.teamScores,
    h'.lastFlagCaptureTeam.trans h.lastFlagCaptureTeam, h'.notices.trans h.notices⟩

/-- **A click** picks a flag up or returns it. -/
theorem clicked_spec (s : State) (guid : Guid) (m : Member) (target : State.Target) :
    Quiet s (s.eventPlayerClickedOnFlag guid m.team target) ∧
      (s.status ≠ .inProgress → s.eventPlayerClickedOnFlag guid m.team target = s) ∧
      ((∀ f, FlagRight s f) → s.players guid = some m → m.online = true →
        ∀ f, FlagRight (s.eventPlayerClickedOnFlag guid m.team target) f) := by
  unfold eventPlayerClickedOnFlag
  split
  · exact ⟨.refl s, fun _ => rfl, fun h _ _ => h⟩
  rename_i hs
  obtain ⟨ha, hap⟩ := quiet_clickedOnBase s guid m.team target .alliance
  set a := s.clickedOnBase guid m.team target .alliance with hadef
  obtain ⟨hb, hbp⟩ := quiet_clickedOnBase a guid m.team target .horde
  set b := a.clickedOnBase guid m.team target .horde with hbdef
  obtain ⟨hc, hcp⟩ := quiet_clickedOnGround b guid m.team target .alliance
  set c := b.clickedOnGround guid m.team target .alliance with hcdef
  obtain ⟨hd, -⟩ := quiet_clickedOnGround c guid m.team target .horde
  refine ⟨((ha.trans hb).trans hc).trans hd, fun hs' => absurd hs' hs, fun h hm honline => ?_⟩
  have hma : a.players guid = some m := by rw [hap, hm]
  have hmb : b.players guid = some m := by rw [hbp, hma]
  have hmc : c.players guid = some m := by rw [hcp, hmb]
  have hfa := flags_clickedOnBase h hm honline target .alliance
  have hfb := flags_clickedOnBase hfa hma honline target .horde
  have hfc := flags_clickedOnGround hfb hmb honline target .alliance
  exact flags_clickedOnGround hfc hmc honline target .horde

/-! ### A participant goes away -/

theorem flags_setPlayer (h : ∀ f, FlagRight s f) (hfree : ∀ f, s.flagKeepers f ≠ some guid)
    (m : Option Member) (f : Team) : FlagRight (s.setPlayer guid m) f where
  carried := (h f).carried
  keeper g hg := by
    obtain ⟨⟨m', hm', honline⟩, hother⟩ := (h f).keeper g hg
    have hne : g ≠ guid := fun heq => hfree f (heq ▸ hg)
    exact ⟨⟨m', (if_neg hne).trans hm', honline⟩, hother⟩
  base := (h f).base

theorem dropped_setPlayer (s : State) (guid g : Guid) (m : Option Member) (team : Team) :
    (s.setPlayer g m).eventPlayerDroppedFlag guid team =
      (s.eventPlayerDroppedFlag guid team).setPlayer g m := by
  unfold eventPlayerDroppedFlag
  have hkeepers : (s.setPlayer g m).flagKeepers = s.flagKeepers := rfl
  have hstatus : (s.setPlayer g m).status = s.status := rfl
  rw [hkeepers, hstatus]
  by_cases hkeeper : s.flagKeepers team.other ≠ some guid
  · rw [if_pos hkeeper, if_pos hkeeper]
  rw [if_neg hkeeper, if_neg hkeeper]
  by_cases hs : s.status ≠ .inProgress
  · rw [if_pos hs, if_pos hs]
    rfl
  rw [if_neg hs, if_neg hs]
  rfl

theorem removeKeeper_setPlayer (found : Bool) (s : State) (guid g : Guid) (m : Option Member)
    (team flag : Team) : (s.setPlayer g m).removeKeeper found guid team flag =
      (s.removeKeeper found guid team flag).setPlayer g m := by
  unfold removeKeeper
  have hkeepers : (s.setPlayer g m).flagKeepers = s.flagKeepers := rfl
  rw [hkeepers]
  by_cases hkeeper : s.flagKeepers flag = some guid
  · rw [if_pos hkeeper, if_pos hkeeper]
    cases found with
    | true => exact dropped_setPlayer s guid g m team
    | false => rfl
  · rw [if_neg hkeeper, if_neg hkeeper]

theorem removePlayer_setPlayer (found : Bool) (s : State) (guid g : Guid) (m : Option Member)
    (team : Team) : (s.setPlayer g m).removePlayer found guid team =
      (s.removePlayer found guid team).setPlayer g m := by
  simp only [removePlayer, foldl_cons, foldl_nil, removeKeeper_setPlayer]

theorem removePlayer_free (found : Bool) (hfree : ∀ f, s.flagKeepers f ≠ some guid)
    (team : Team) : s.removePlayer found guid team = s := by
  simp only [removePlayer, foldl_cons, foldl_nil, removeKeeper, if_neg (hfree _)]

theorem quiet_removeKeeper (found : Bool) (s : State) (guid : Guid) (team flag : Team) :
    Quiet s (s.removeKeeper found guid team flag) := by
  unfold removeKeeper
  split
  · split
    · exact quiet_dropped s guid team
    · exact ⟨rfl, rfl, rfl, rfl⟩
  · exact .refl s

theorem quiet_removePlayer (found : Bool) (s : State) (guid : Guid) (team : Team) :
    Quiet s (s.removePlayer found guid team) :=
  (quiet_removeKeeper found s guid team .alliance).trans
    (quiet_removeKeeper found _ guid team .horde)

theorem players_dropped (s : State) (guid : Guid) (team : Team) :
    (s.eventPlayerDroppedFlag guid team).players = s.players := by
  unfold eventPlayerDroppedFlag
  split
  · rfl
  dsimp only
  split <;> rfl

theorem removeKeeper_online (h : ∀ f, FlagRight s f) (hs : s.status = .inProgress)
    (hm : s.players guid = some m) (flag : Team) :
    (∀ f, FlagRight (s.removeKeeper true guid m.team flag) f) ∧
      (s.removeKeeper true guid m.team flag).flagKeepers flag ≠ some guid ∧
      (∀ f, (s.removeKeeper true guid m.team flag).flagKeepers f = some guid →
        s.flagKeepers f = some guid) ∧
      (s.removeKeeper true guid m.team flag).players = s.players := by
  unfold removeKeeper
  split
  · rename_i hkeeper
    rw [if_pos rfl]
    -- the keeper of a flag is of the other team, so that the drop is of this flag
    obtain ⟨⟨m', hm', -, hteam⟩, -⟩ := (h flag).keeper guid hkeeper
    rw [hm] at hm'
    cases hm'
    obtain ⟨hgone, hrest⟩ := keeper_dropped (s := s) guid m.team
    rw [hteam, other_other] at hgone
    refine ⟨flags_dropped h hs guid m.team, by rw [hteam]; exact hgone, fun f hf => ?_,
      players_dropped s guid m.team⟩
    rcases hrest f with hsame | hnone
    · exact hsame ▸ hf
    rw [hnone] at hf
    cases hf
  rename_i hkeeper
  exact ⟨h, hkeeper, fun f hf => hf, rfl⟩

/-- **An online participant goes away** and keeps nothing. -/
theorem removePlayer_online (h : ∀ f, FlagRight s f) (hs : s.status = .inProgress)
    (hm : s.players guid = some m) : (∀ f, FlagRight (s.removePlayer true guid m.team) f) ∧
      ∀ f, (s.removePlayer true guid m.team).flagKeepers f ≠ some guid := by
  obtain ⟨ha, hfreea, -, hplayers⟩ := removeKeeper_online h hs hm .alliance
  have hsa := (quiet_removeKeeper true s guid m.team .alliance).status.trans hs
  obtain ⟨hb, hfreeb, hback, -⟩ :=
    removeKeeper_online ha hsa (by rw [hplayers, hm]) .horde
  refine ⟨hb, fun f hf => ?_⟩
  cases f with
  | alliance => exact hfreea (hback _ hf)
  | horde => exact hfreeb hf

theorem free_of_offline (h : ∀ f, FlagRight s f)
    (hoff : ∀ m, s.players guid = some m → m.online = false) (f : Team) :
    s.flagKeepers f ≠ some guid := by
  intro hf
  obtain ⟨⟨m, hm, honline, -⟩, -⟩ := (h f).keeper guid hf
  rw [hoff m hm] at honline
  cases honline

/-! ### The timers -/

theorem keeper_none (h : ∀ f, FlagRight s f) (hs : s.flagState flag ≠ .onPlayer) :
    s.flagKeepers flag = none := by
  by_contra hne
  exact hs ((h flag).carried.mpr hne)

theorem flags_waitOver (h : ∀ f, FlagRight s f) (hs : s.flagState flag = .waitRespawn)
    (timers : Team → ℤ) (f : Team) :
    FlagRight (({ s with flagsTimer := timers } : State).respawnFlag flag true) f := by
  refine flags_update h (({ s with flagsTimer := timers } : State).respawnFlag flag true) flag
    .onBase none rfl (fun _ => rfl) (fun g => ?_) (by simp) nofun
    (fun _ => ?_) (fun _ => ?_) f
  · change s.flagKeepers g = _
    split
    · rename_i hg
      rw [hg, keeper_none h (by rw [hs]; simp)]
    · rfl
  · left
    cases flag <;> rfl
  left
  cases flag <;> rfl

theorem flags_respawnFlagAfterDrop (h : ∀ f, FlagRight s f) (hs : s.flagState flag = .onGround)
    (f : Team) : FlagRight (s.respawnFlagAfterDrop flag) f := by
  unfold respawnFlagAfterDrop
  split
  · exact h f
  · exact flags_return h ((s.respawnFlag flag false).spawnFlag flag true) hs rfl rfl rfl rfl f

theorem quiet_respawnFlagAfterDrop (s : State) (flag : Team) :
    Quiet s (s.respawnFlagAfterDrop flag) := by
  unfold respawnFlagAfterDrop
  split
  · exact .refl s
  · exact ⟨rfl, rfl, rfl, rfl⟩

/-- A part of a request that leaves the scores and the notices alone and the flags right. -/
def Calm (s t : State) : Prop := Quiet s t ∧ ((∀ f, FlagRight s f) → ∀ f, FlagRight t f)

theorem Calm.refl (s : State) : Calm s s := ⟨.refl s, fun h => h⟩

theorem Calm.trans {u : State} (h : Calm s t) (h' : Calm t u) : Calm s u :=
  ⟨h.1.trans h'.1, fun hs => h'.2 (h.2 hs)⟩

theorem calm_waitUpdate (diff : ℕ) (s : State) (flag : Team) : Calm s (s.waitUpdate diff flag) := by
  unfold waitUpdate
  split
  · rename_i hs
    dsimp only
    split
    · exact ⟨⟨rfl, rfl, rfl, rfl⟩, fun h => flags_waitOver h hs _⟩
    · exact ⟨⟨rfl, rfl, rfl, rfl⟩, fun h f => ⟨(h f).carried, (h f).keeper, (h f).base⟩⟩
  · exact .refl s

theorem calm_dropUpdate (diff : ℕ) (s : State) (flag : Team) : Calm s (s.dropUpdate diff flag) := by
  unfold dropUpdate
  split
  · rename_i hs
    dsimp only
    have hq (timers : Team → ℤ) : Quiet s { s with flagsDropTimer := timers } :=
      ⟨rfl, rfl, rfl, rfl⟩
    split
    · exact ⟨(hq _).trans (quiet_respawnFlagAfterDrop _ flag), fun h =>
        flags_respawnFlagAfterDrop (fun f => ⟨(h f).carried, (h f).keeper, (h f).base⟩) hs⟩
    · exact ⟨hq _, fun h f => ⟨(h f).carried, (h f).keeper, (h f).base⟩⟩
  · exact .refl s

/-- **The timers of a flag.** -/
theorem calm_flagUpdate (diff : ℕ) (s : State) (flag : Team) : Calm s (s.flagUpdate diff flag) :=
  (calm_waitUpdate diff s flag).trans (calm_dropUpdate diff _ flag)

/-! ### A capture -/

theorem right_testWin (hle : ∀ team, s.teamScores team ≤ maxTeamScore)
    (hone : s.teamScores .alliance ≠ maxTeamScore ∨ s.teamScores .horde ≠ maxTeamScore)
    {winner : Team} (hwin : s.teamScores winner = maxTeamScore) :
    Ended.Right ⟨some winner, s.teamScores .alliance, s.teamScores .horde,
      s.lastFlagCaptureTeam⟩ := by
  have ha := hle .alliance
  have hh := hle .horde
  unfold Ended.Right
  dsimp only
  cases winner with
  | alliance => exact ⟨fun _ => rfl, fun hlt => by omega, fun heq => by omega⟩
  | horde => exact ⟨fun hlt => by omega, fun _ => rfl, fun heq => by omega⟩

theorem scores_testWin (s : State) (team : Team) : (s.testWin team).teamScores = s.teamScores ∧
      (s.testWin team).lastFlagCaptureTeam = s.lastFlagCaptureTeam := by
  unfold testWin
  dsimp only
  generalize (if s.teamScores .horde = maxTeamScore then some Team.horde
    else if s.teamScores .alliance = maxTeamScore then some Team.alliance else none) = winner
  split <;> exact ⟨rfl, rfl⟩

theorem inv_testWin (hs : s.status = .inProgress) (hflags : ∀ f, FlagRight s f)
    (hnotices : s.notices = []) (hle : ∀ team, s.teamScores team ≤ maxTeamScore)
    (hone : s.teamScores .alliance ≠ maxTeamScore ∨ s.teamScores .horde ≠ maxTeamScore)
    (hlast : s.lastFlagCaptureTeam = none → ∀ team, s.teamScores team = 0) (team : Team) :
    Inv (s.testWin team) := by
  unfold testWin
  by_cases hhorde : s.teamScores .horde = maxTeamScore
  · rw [if_pos hhorde, if_pos (by simp)]
    exact inv_endBattleground hle hlast hnotices (right_testWin hle hone hhorde)
  rw [if_neg hhorde]
  by_cases halliance : s.teamScores .alliance = maxTeamScore
  · rw [if_pos halliance, if_pos (by simp)]
    exact inv_endBattleground hle hlast hnotices (right_testWin hle hone halliance)
  rw [if_neg halliance, if_neg (by simp)]
  refine ⟨⟨fun _ f => ⟨(hflags f).carried, (hflags f).keeper, (hflags f).base⟩, hle,
    by rw [hnotices]; exact Nat.zero_le 1, by rw [hnotices]; simp⟩,
    fun _ => ⟨hnotices, fun other => ?_⟩, hlast, fun heq => ?_⟩
  · cases other with
    | alliance => exact Nat.lt_of_le_of_ne (hle .alliance) halliance
    | horde => exact Nat.lt_of_le_of_ne (hle .horde) hhorde
  change s.status = .waitJoin at heq
  rw [hs] at heq
  cases heq

theorem flags_capture (h : ∀ f, FlagRight s f) (team f : Team) : FlagRight (s.capture team) f := by
  refine flags_update h (s.capture team) team.other .waitRespawn none rfl (fun _ => rfl)
    (fun _ => rfl) (by simp) nofun nofun (fun _ => ?_) f
  exact .inr rfl

/-- **A capture**: the flag waits, both objects are gone, and the team has a point more. -/
theorem captured_spec (h : Inv s) (hs : s.status = .inProgress)
    (hbase : s.flagState team = .onBase) (hcarries : Carries s team) :
    Inv (s.eventPlayerCapturedFlag team) ∧ ScoresRight s (s.eventPlayerCapturedFlag team) := by
  obtain ⟨hnotices, hscore⟩ := h.notOver (by rw [hs]; simp)
  obtain ⟨g, m, hkeeper, -⟩ := id hcarries
  have hscores : (s.capture team).teamScores =
      fun other => if other = team then s.teamScores team + 1 else s.teamScores other := by
    funext other
    change (if other = team ∧ s.teamScores team < maxTeamScore then _ else _) = _
    by_cases ho : other = team
    · rw [if_pos ⟨ho, hscore team⟩, if_pos ho]
      rfl
    rw [if_neg (fun hboth => ho hboth.1), if_neg ho]
    rfl
  have hlast : (s.capture team).lastFlagCaptureTeam = some team := rfl
  have hscored (other : Team) : (s.capture team).teamScores other ≤ maxTeamScore := by
    have hlt := hscore other
    have hlt' := hscore team
    rw [hscores]
    dsimp only
    split
    · exact hlt'
    · exact hlt.le
  have hkept : (s.capture team).teamScores team.other ≠ maxTeamScore := by
    exact fun heq => (hscore team.other).ne ((if_neg (by simp)).symm.trans heq)
  unfold eventPlayerCapturedFlag
  rw [if_neg (not_not.mpr hs), if_neg (by rw [hkeeper]; simp)]
  constructor
  · refine inv_testWin (s := s.capture team) hs (flags_capture (h.flag hs) team) hnotices hscored
      ?_ (fun hnone => by rw [hlast] at hnone; cases hnone) team
    cases team with
    | alliance => exact .inr hkept
    | horde => exact .inl hkept
  obtain ⟨hsame, hsameLast⟩ := scores_testWin (s.capture team) team
  exact .inr ⟨team, hbase, hcarries, hsame.trans hscores, hsameLast.trans hlast⟩

theorem Inv.unchanged (h : Inv s) : Inv s ∧ ScoresRight s s := ⟨h, .inl ⟨rfl, rfl⟩⟩

theorem areaTrigger_spec (h : Inv s) (hm : s.players guid = some m) (flag : Team) :
    Inv (s.handleAreaTrigger guid m.team flag) ∧
      ScoresRight s (s.handleAreaTrigger guid m.team flag) := by
  unfold handleAreaTrigger
  split
  · exact h.unchanged
  rename_i hs
  rw [not_not] at hs
  split
  · rename_i hcarry
    obtain ⟨⟨m', hm', -, hteam⟩, -⟩ := (h.flag hs flag.other).keeper guid hcarry.2.2
    rw [hm] at hm'
    cases hm'
    rw [other_other] at hteam
    rw [hteam]
    exact captured_spec h hs hcarry.2.1 ⟨guid, m, hcarry.2.2, hm, hteam⟩
  · exact h.unchanged

/-! ### Every request -/

section

variable (h : Inv s)

include h

theorem Inv.calm (hq : Quiet s t) (hflag : s.status = .inProgress → ∀ flag, FlagRight t flag)
    (hfresh : s.status = .waitJoin → ∀ flag, t.flagState flag = .onBase ∧
      t.flagKeepers flag = none) : Inv t ∧ ScoresRight s t :=
  ⟨h.quiet hq (fun hs => hflag (hq.status ▸ hs)) (fun hs => hfresh (hq.status ▸ hs)),
    .inl ⟨hq.teamScores, hq.lastFlagCaptureTeam⟩⟩

theorem setPlayer_spec (hfree : s.status = .inProgress → ∀ f, s.flagKeepers f ≠ some guid)
    (m : Option Member) : Inv (s.setPlayer guid m) ∧ ScoresRight s (s.setPlayer guid m) :=
  h.calm ⟨rfl, rfl, rfl, rfl⟩ (fun hs => flags_setPlayer (h.flag hs) (hfree hs) m) h.fresh

/-- **A participant goes away**, for good or for a while. -/
theorem removePlayer_spec (hm : s.players guid = some m) (m' : Option Member) :
    Inv ((s.setPlayer guid m').removePlayer m.online guid m.team) ∧
      ScoresRight s ((s.setPlayer guid m').removePlayer m.online guid m.team) := by
  rw [removePlayer_setPlayer]
  have hq : Quiet s ((s.removePlayer m.online guid m.team).setPlayer guid m') :=
    (quiet_removePlayer m.online s guid m.team).trans ⟨rfl, rfl, rfl, rfl⟩
  refine h.calm hq (fun hs => ?_) (fun hs => ?_)
  · cases honline : m.online with
    | true =>
      obtain ⟨hflags, hfree⟩ := removePlayer_online (h.flag hs) hs hm
      exact flags_setPlayer hflags hfree m'
    | false =>
      have hoff (n : Member) (hn : s.players guid = some n) : n.online = false := by
        rw [hm] at hn
        cases hn
        exact honline
      have hfree := free_of_offline (h.flag hs) hoff
      rw [removePlayer_free false hfree]
      exact flags_setPlayer (h.flag hs) hfree m'
  have hfree (f : Team) : s.flagKeepers f ≠ some guid := by
    rw [(h.fresh hs f).2]
    simp
  rw [removePlayer_free m.online hfree]
  exact h.fresh hs

theorem dropped_spec (guid : Guid) (team : Team) : Inv (s.eventPlayerDroppedFlag guid team) ∧
      ScoresRight s (s.eventPlayerDroppedFlag guid team) := by
  refine h.calm (quiet_dropped s guid team) (fun hs => flags_dropped (h.flag hs) hs guid team)
    fun hs => ?_
  unfold eventPlayerDroppedFlag
  rw [if_pos (by rw [(h.fresh hs team.other).2]; simp)]
  exact h.fresh hs

theorem clicked_inv (hm : s.players guid = some m) (honline : m.online = true)
    (target : State.Target) : Inv (s.eventPlayerClickedOnFlag guid m.team target) ∧
      ScoresRight s (s.eventPlayerClickedOnFlag guid m.team target) := by
  obtain ⟨hq, hnoop, hflags⟩ := clicked_spec s guid m target
  refine h.calm hq (fun hs => hflags (h.flag hs) hm honline) fun hs => ?_
  rw [hnoop (by rw [hs]; simp)]
  exact h.fresh hs

theorem postUpdate_spec (diff elapsed : ℕ) :
    Inv (s.postUpdateImpl diff elapsed) ∧ ScoresRight s (s.postUpdateImpl diff elapsed) := by
  unfold postUpdateImpl
  split
  · rename_i hs
    obtain ⟨hnotices, -⟩ := h.notOver (by rw [hs]; simp)
    -- the time may be up, which changes no flag
    have htime : ∀ t, (t = s.endBattleground s.timeWinner ∨ t = s) →
        Inv t ∧ (∀ f, FlagRight t f) ∧ t.teamScores = s.teamScores ∧
          t.lastFlagCaptureTeam = s.lastFlagCaptureTeam ∧ t.status ≠ .waitJoin := by
      rintro t (rfl | rfl)
      · exact ⟨inv_endBattleground h.score h.last hnotices (right_timeWinner s), fun f =>
          ⟨(h.flag hs f).carried, (h.flag hs f).keeper, (h.flag hs f).base⟩, rfl, rfl,
          nofun⟩
      · exact ⟨h, h.flag hs, rfl, rfl, by rw [hs]; simp⟩
    have hcases : (if matchTime ≤ elapsed then s.endBattleground s.timeWinner else s) =
        s.endBattleground s.timeWinner ∨
          (if matchTime ≤ elapsed then s.endBattleground s.timeWinner else s) = s := by
      split
      · exact .inl rfl
      · exact .inr rfl
    generalize (if matchTime ≤ elapsed then s.endBattleground s.timeWinner else s) = t at hcases
    obtain ⟨hinv, hflags, hscores, hlast, hjoin⟩ := htime t hcases
    obtain ⟨hq, hcalm⟩ := (calm_flagUpdate diff t .alliance).trans (calm_flagUpdate diff _ .horde)
    rw [foldl_cons, foldl_cons, foldl_nil]
    refine ⟨hinv.quiet hq (fun _ => hcalm hflags) fun heq => ?_,
      .inl ⟨hq.teamScores.trans hscores, hq.lastFlagCaptureTeam.trans hlast⟩⟩
    exact absurd (hq.status.symm.trans heq) hjoin
  · exact h.unchanged

theorem openDoors_spec : Inv (step s .openDoors) ∧ ScoresRight s (step s .openDoors) := by
  simp only [step]
  split
  · rename_i hs
    have hfresh := h.fresh hs
    refine ⟨⟨{ h with flag := fun _ f => ⟨?_, fun g hg => ?_, fun _ => .inl ?_⟩ },
      fun _ => h.notOver (by rw [hs]; simp), h.last, nofun⟩, .inl ⟨rfl, rfl⟩⟩
    · change s.flagState f = .onPlayer ↔ s.flagKeepers f ≠ none
      rw [(hfresh f).1, (hfresh f).2]
      simp
    · change s.flagKeepers f = some g at hg
      rw [(hfresh f).2] at hg
      cases hg
    · cases f <;> rfl
  · exact h.unchanged

end

theorem flags_logIn (h : ∀ f, FlagRight s f) (hm : s.players guid = some m) (f : Team) :
    FlagRight (s.setPlayer guid (some { m with online := true })) f where
  carried := (h f).carried
  keeper g hg := by
    obtain ⟨⟨m', hm', honline, hteam⟩, hother⟩ := (h f).keeper g hg
    refine ⟨?_, hother⟩
    by_cases hgg : g = guid
    · subst hgg
      rw [hm] at hm'
      cases hm'
      exact ⟨{ m with online := true }, if_pos rfl, rfl, hteam⟩
    · exact ⟨m', (if_neg hgg).trans hm', honline, hteam⟩
  base := (h f).base

theorem serve_spec (h : Inv s) (hm : s.players guid = some m) (r : Request) :
    Inv (serve s guid m r) ∧ ScoresRight s (serve s guid m r) := by
  cases r with
  | openDoors | join | postUpdate => exact h.unchanged
  | logOut =>
    change Inv (if m.online = true then _ else s) ∧ ScoresRight s (if m.online = true then _ else s)
    split
    · rename_i honline
      have hgone := removePlayer_spec h hm (some { m with online := false })
      rw [honline] at hgone
      by_cases hs : s.status = .inProgress
      · rw [if_pos hs]
        exact hgone
      rw [if_neg hs]
      exact setPlayer_spec h (fun heq => absurd heq hs) _
    · exact h.unchanged
  | logIn =>
    exact h.calm ⟨rfl, rfl, rfl, rfl⟩ (fun hs => flags_logIn (h.flag hs) hm) h.fresh
  | leave => exact removePlayer_spec h hm none
  | click _ target =>
    change Inv (if m.online = true ∧ s.shown target = true then _ else s) ∧
      ScoresRight s (if m.online = true ∧ s.shown target = true then _ else s)
    split
    · rename_i hclick
      exact clicked_inv h hm hclick.1 target
    · exact h.unchanged
  | drop =>
    change Inv (if m.online = true then _ else s) ∧ ScoresRight s (if m.online = true then _ else s)
    split
    · exact dropped_spec h guid m.team
    · exact h.unchanged
  | areaTrigger _ flag =>
    change Inv (if m.online = true then _ else s) ∧ ScoresRight s (if m.online = true then _ else s)
    split
    · exact areaTrigger_spec h hm flag
    · exact h.unchanged

theorem inv_reset : Inv reset where
  flag heq := by cases heq
  score _ := Nat.zero_le _
  once := Nat.zero_le _
  winner e he := by cases he
  notOver _ := ⟨rfl, fun _ => Nat.zero_lt_succ _⟩
  last _ _ := rfl
  fresh _ _ := ⟨rfl, rfl⟩

/-- **Every request** keeps the invariant and the scores right. -/
theorem step_spec (h : Inv s) (r : Request) : Inv (step s r) ∧ ScoresRight s (step s r) := by
  cases r with
  | openDoors => exact openDoors_spec h
  | join guid team =>
    simp only [step]
    split
    · rename_i hnone
      -- who is no participant keeps no flag
      refine setPlayer_spec h (fun hs => free_of_offline (h.flag hs) fun m hm => ?_) _
      rw [hnone] at hm
      cases hm
    · exact h.unchanged
  | postUpdate diff elapsed => exact postUpdate_spec h diff elapsed
  | logOut guid | logIn guid | leave guid | click guid target | drop guid
  | areaTrigger guid flag =>
    simp only [step, Request.guid]
    cases hm : s.players guid with
    | none => exact h.unchanged
    | some m => exact serve_spec h hm _

/-! ### The result -/

end ZerosCore.Battlegrounds.WarsongGulch
