/-
# The weekly challenges of guilds

`Guild::ChallengesMgr` of `src/server/game/Guilds/Guild.cpp`: `CheckChallenge` rewards a group of
guild members as long as the challenges of the type that the guild has completed are fewer than
`GetTotalCountFor`.

A completed challenge is written to `guild_challenges_completed` and not to the list that is
counted; the list is filled from the table when the guilds are loaded, and then with the rows of all
guilds.  `capped_iff` says which runs of checks, resets and restarts keep to the cap and count no
guild's challenges against another.

The statements that change the table are executed before the next query.  What `GiveReward` gives
is kept as the list of the rewards since the last reset.
-/

import Mathlib.Data.List.Count
import ZerosCore.Lib.Run

namespace ZerosCore.GuildChallenges

open List

inductive RaidDifficulty where
  | raid10Normal
  | raid25Normal
  | raid10Heroic
  | raid25Heroic

/-- What `CheckChallenge` reads of a group: `guildMembersInGroup` are the members that are in the
guild, `ratedNeeds` what a rated battleground of the leader needs of them. -/
structure Group where
  memberCount : ℕ
  guildMembersInGroup : ℕ
  isRaidGroup : Bool
  raidDifficulty : RaidDifficulty
  isBGGroup : Bool
  ratedNeeds : Option ℕ

/-- A guild and a challenge: a row of `guild_challenges_completed`, or a reward. -/
structure Completed where
  guildId : ℕ
  challengeId : ℕ

/-- The guilds and the types of the challenges (`m_challenges`, with `0` for other ids). -/
structure Config where
  guilds : List ℕ
  typeId : ℕ → ℕ

/-- The table, the list `m_completedChallenges` of each guild and the rewards since the last
reset. -/
structure State where
  table : List Completed
  completedChallenges : ℕ → List ℕ
  rewarded : List Completed

/-- The server when no challenge has been completed. -/
def start : State := ⟨[], fun _ => [], []⟩

def getTotalCountFor (typeId : ℕ) : ℕ :=
  match typeId with
  | 0 => 1
  | 1 => 7
  | 2 => 1
  | 3 => 3
  | _ => 0

def getCurrentCountFor (cfg : Config) (s : State) (guildId typeId : ℕ) : ℕ :=
  (s.completedChallenges guildId).countP fun challengeId => cfg.typeId challengeId = typeId

/-- `giveReward` of `CheckChallenge`. -/
def giveReward (grp : Group) (typeId : ℕ) : Bool :=
  match typeId with
  | 1 =>
    (grp.memberCount ≤ 2 && grp.guildMembersInGroup == 1) ||
      (grp.memberCount ≥ 3 && grp.guildMembersInGroup ≥ 3)
  | 2 =>
    grp.isRaidGroup &&
      match grp.raidDifficulty with
      | .raid10Normal | .raid10Heroic =>
        (grp.memberCount ≤ 2 && grp.guildMembersInGroup == 1) ||
          (grp.memberCount ≥ 8 && grp.guildMembersInGroup ≥ 8)
      | .raid25Normal | .raid25Heroic =>
        (grp.memberCount ≤ 2 && grp.guildMembersInGroup == 1) ||
          (grp.memberCount ≥ 20 && grp.guildMembersInGroup ≥ 20)
  | 3 =>
    grp.isBGGroup &&
      match grp.ratedNeeds with
      | some needed => grp.guildMembersInGroup ≥ needed
      | none => false
  | _ => false

/-- `CheckChallenge` with `GiveReward` and `SaveCompletedChallengeToDB`. -/
def checkChallenge (cfg : Config) (s : State) (guildId : ℕ) (grp : Group) (challengeId : ℕ) :
    State :=
  let type := cfg.typeId challengeId
  if getCurrentCountFor cfg s guildId type ≥ getTotalCountFor type then s
  else if giveReward grp type then
    { s with
      rewarded := s.rewarded ++ [⟨guildId, challengeId⟩]
      table := s.table ++ [⟨guildId, challengeId⟩] }
  else s

def resetWeeklyChallenges (s : State) (guildId : ℕ) : State where
  table := s.table.filter fun row => row.guildId ≠ guildId
  completedChallenges := Function.update s.completedChallenges guildId []
  rewarded := s.rewarded.filter fun row => row.guildId ≠ guildId

/-- A restart, where `LoadChallengesFromDB` fills the empty list of each guild. -/
def restart (s : State) : State :=
  { s with completedChallenges := fun _ => s.table.map fun row => row.challengeId }

inductive Op where
  | check (guildId : ℕ) (grp : Group) (challengeId : ℕ)
  | reset (guildId : ℕ)
  | restart

def step (cfg : Config) (s : State) : Op → State
  | .check guildId grp challengeId =>
    if guildId ∈ cfg.guilds then checkChallenge cfg s guildId grp challengeId else s
  | .reset guildId => resetWeeklyChallenges s guildId
  | .restart => restart s

/-! ### The cap -/

/-- The rewards of the type that the guild was given since its last reset. -/
def rewards (cfg : Config) (s : State) (guildId typeId : ℕ) : ℕ :=
  s.rewarded.countP fun row => row.guildId = guildId ∧ cfg.typeId row.challengeId = typeId

/-- No guild has more rewards of a type than it may have, and none is counted more of them than it
was given. -/
def Capped (cfg : Config) (s : State) : Prop :=
  ∀ guildId ∈ cfg.guilds, ∀ typeId, rewards cfg s guildId typeId ≤ getTotalCountFor typeId ∧
      getCurrentCountFor cfg s guildId typeId ≤ rewards cfg s guildId typeId

/-- A check that gives a reward finds fewer of them than there may be, and at a restart no guild has
completed a challenge while there is another guild. -/
def Meets (cfg : Config) (s : State) : Op → Prop
  | .check guildId grp challengeId =>
    guildId ∈ cfg.guilds → giveReward grp (cfg.typeId challengeId) = true →
      getCurrentCountFor cfg s guildId (cfg.typeId challengeId) <
        getTotalCountFor (cfg.typeId challengeId) →
      rewards cfg s guildId (cfg.typeId challengeId) <
        getTotalCountFor (cfg.typeId challengeId)
  | .reset _ => True
  | .restart => ∀ row ∈ s.rewarded, ∀ guildId ∈ cfg.guilds, row.guildId = guildId

variable {cfg : Config} {s : State} {guildId challengeId typeId : ℕ} {grp : Group} {op : Op}

/-- The table has the rewards since the last resets. -/
def Recorded (s : State) : Prop := s.table = s.rewarded

/-- No call puts the table and the list apart. -/
theorem Recorded.step (cfg : Config) (h : Recorded s) (op : Op) : Recorded (step cfg s op) := by
  unfold Recorded at h ⊢
  cases op with
  | check guildId grp challengeId =>
    dsimp only [GuildChallenges.step, checkChallenge]
    split_ifs <;> simp [h]
  | reset guildId => exact congrArg _ h
  | restart => exact h

/-- **A check** keeps to the cap if and only if the reward that it gives does. -/
theorem capped_check (h : Capped cfg s) : Capped cfg (step cfg s (.check guildId grp challengeId)) ↔
      Meets cfg s (.check guildId grp challengeId) := by
  unfold step checkChallenge Meets
  dsimp only
  split_ifs with hguild hcount hgive
  · exact iff_of_true h fun _ _ hlt => absurd hlt (by omega)
  · have hlt : getCurrentCountFor cfg s guildId (cfg.typeId challengeId) <
        getTotalCountFor (cfg.typeId challengeId) := by omega
    have hcounts : ∀ g τ, rewards cfg { s with
        rewarded := s.rewarded ++ [⟨guildId, challengeId⟩]
        table := s.table ++ [⟨guildId, challengeId⟩] } g τ =
          rewards cfg s g τ + if guildId = g ∧ cfg.typeId challengeId = τ then 1 else 0 := by
      intro g τ
      unfold rewards
      rw [countP_append, countP_singleton]
      simp only [decide_eq_true_eq]
    constructor
    · intro hnext _ _ _
      have hle := (hnext guildId hguild (cfg.typeId challengeId)).1
      rw [hcounts, if_pos ⟨rfl, rfl⟩] at hle
      omega
    intro hmeets g hg τ
    obtain ⟨hle, hcur⟩ := h g hg τ
    rw [hcounts]
    refine ⟨?_, Nat.le_trans hcur (Nat.le_add_right _ _)⟩
    split_ifs with heq
    · obtain ⟨rfl, rfl⟩ := heq
      exact hmeets hguild hgive hlt
    · exact hle
  · exact iff_of_true h fun _ hyes => absurd hyes hgive
  · exact iff_of_true h fun hg => absurd hg hguild

/-- **A reset** keeps to the cap. -/
theorem capped_reset (h : Capped cfg s) (guildId : ℕ) :
    Capped cfg (step cfg s (.reset guildId)) := by
  intro g hg τ
  obtain ⟨hle, hcur⟩ := h g hg τ
  unfold step resetWeeklyChallenges rewards getCurrentCountFor
  dsimp only
  rw [countP_filter]
  by_cases heq : g = guildId
  · subst heq
    rw [Function.update_self, countP_eq_zero.mpr (by simp +contextual)]
    exact ⟨Nat.zero_le _, Nat.zero_le _⟩
  rw [Function.update_of_ne heq]
  have hsame : (s.rewarded.countP fun row => decide (row.guildId = g ∧
      cfg.typeId row.challengeId = τ) && decide (row.guildId ≠ guildId)) = rewards cfg s g τ := by
    refine countP_congr fun row _ => ?_
    simp only [Bool.and_eq_true, decide_eq_true_eq]
    exact ⟨fun h => h.1, fun h => ⟨h, fun hid => heq (h.1.symm.trans hid)⟩⟩
  rw [hsame]
  exact ⟨hle, hcur⟩

/-- **A restart** counts the challenges of all guilds against each of them. -/
theorem capped_restart (h : Capped cfg s) (hrec : Recorded s) :
    Capped cfg (step cfg s .restart) ↔ Meets cfg s .restart := by
  have hcount : ∀ g τ, getCurrentCountFor cfg (restart s) g τ =
      s.rewarded.countP fun row => cfg.typeId row.challengeId = τ := by
    intro g τ
    unfold getCurrentCountFor restart
    rw [hrec, countP_map]
    rfl
  constructor
  · intro hnext row hrow g hg
    have hle := (hnext g hg (cfg.typeId row.challengeId)).2
    rw [show step cfg s .restart = restart s from rfl, hcount] at hle
    have hfiltered : rewards cfg s g (cfg.typeId row.challengeId) =
        (s.rewarded.filter fun r => cfg.typeId r.challengeId =
          cfg.typeId row.challengeId).countP fun r => r.guildId = g := by
      rw [countP_filter]
      unfold rewards
      simp only [Bool.decide_and]
    rw [show rewards cfg (restart s) g = rewards cfg s g from rfl, hfiltered,
      countP_eq_length_filter] at hle
    have hall := countP_eq_length.mp (Nat.le_antisymm countP_le_length hle)
    have hmine := hall row (mem_filter.mpr ⟨hrow, by simp⟩)
    simpa using hmine
  intro hown g hg τ
  refine ⟨(h g hg τ).1, ?_⟩
  rw [show step cfg s .restart = restart s from rfl, hcount]
  refine countP_mono_left fun row hrow hτ => ?_
  simpa [hown row hrow g hg] using hτ

/-- **A run keeps to the cap if and only if no check gives a reward too many** and no restart counts
the challenges of one guild against another. -/
theorem capped_iff (cfg : Config) (ops : List Op) :
    Lib.Along (step cfg) (fun s op => Capped cfg (step cfg s op)) start ops ↔
      Lib.Along (step cfg) (Meets cfg) start ops := by
  refine Lib.Along.iff_of_invariant (I := fun s => Capped cfg s ∧ Recorded s) ?_ ?_ ?_
  · rintro s op ⟨hcap, hrec⟩
    cases op with
    | check guildId grp challengeId => exact capped_check hcap
    | reset guildId => exact iff_of_true (capped_reset hcap guildId) trivial
    | restart => exact capped_restart hcap hrec
  · rintro s op ⟨-, hrec⟩ hnext
    exact ⟨hnext, hrec.step cfg op⟩
  · exact ⟨fun _ _ _ => ⟨Nat.zero_le _, Nat.zero_le _⟩, rfl⟩

/-- Two guilds; the challenge `7` is a raid, of which one is rewarded. -/
def twoGuilds : Config := ⟨[1, 2], fun challengeId => if challengeId = 7 then 2 else 0⟩

def tenMembers : Group := ⟨10, 10, true, .raid10Normal, false, none⟩

/-- The same guild is rewarded twice, and after a restart the other guild is not rewarded. -/
theorem rewarded_twice :
    rewards twoGuilds ([.check 1 tenMembers 7, .check 1 tenMembers 7].foldl (step twoGuilds) start)
        1 2 = 2 ∧ rewards twoGuilds ([.check 1 tenMembers 7, .restart, .check 2 tenMembers 7].foldl
        (step twoGuilds) start) 2 2 = 0 ∧
      ¬Capped twoGuilds ([.check 1 tenMembers 7, .check 1 tenMembers 7].foldl
        (step twoGuilds) start) ∧
      ¬Capped twoGuilds ([.check 1 tenMembers 7, .restart].foldl (step twoGuilds) start) := by
  refine ⟨by decide, by decide, fun h => ?_, fun h => ?_⟩
  · exact absurd (h 1 (by decide) 2).1 (by decide)
  · exact absurd (h 2 (by decide) 2).2 (by decide)

end ZerosCore.GuildChallenges
