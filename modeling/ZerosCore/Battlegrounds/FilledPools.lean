/-
# The pools that fill a battleground that goes on

`BattlegroundQueue::FillPlayersToBG` of `src/server/game/Battlegrounds/BattlegroundQueue.cpp`
fills the two pools from the two queues, and then kicks groups and adds others as long as the
places left differ by more than one.  Groups of any size are kicked by size, so that in the end
both pools may be empty though both sides had players to send.

Whatever is selected, kicked and added, a pool counts its groups, takes none that is invited, and
keeps within the free slots (`sound_balance`).  A turn of the loop gives up a group for good,
since the queues are gone through once, and so the loop ends (`balance_fuel`).  A queue that is
not gone through by the first filling has filled its side; so if the places left differ in the
end, one queue was gone through, and a pool is empty (`fillPlayersToBG_right`).  The groups that
were kicked might be selected again, in both queues (`selectable_left`).
-/

import ZerosCore.Battlegrounds.BattlegroundQueue

namespace ZerosCore.Battlegrounds.Queues

open BattlegroundQueue List BattlegroundQueue Function

def statusWaitJoin : ℕ := 2

def statusInProgress : ℕ := 3

/-- A battleground that goes on, with the players invited for a team, of which there are no more
than it takes, and those who are in. -/
structure RunningBattleground where
  place : Place
  invited : Team → ℕ
  playersCount : Team → ℕ
  invited_le : ∀ team, invited team ≤ place.maxPlayersPerTeam

namespace RunningBattleground

def getFreeSlotsForTeam (bg : RunningBattleground) (team : Team) : ℕ :=
  let space := bg.place.maxPlayersPerTeam - bg.invited team
  if bg.place.status = statusWaitJoin then space
  else if bg.place.status = statusInProgress then
    let diff :=
      if bg.invited team.other = bg.invited team then 1
      else bg.invited team.other - bg.invited team
    let diff3 :=
      if bg.playersCount team.other = bg.playersCount team then 1
      else if bg.playersCount team < bg.playersCount team.other then
        bg.playersCount team.other - bg.playersCount team
      else if bg.invited team ≤ bg.place.minPlayersPerTeam then
        bg.place.minPlayersPerTeam - bg.invited team + 1
      else 0
    min (min diff space) diff3
  else 0

/-- What the queue sees of it. -/
def toPlace (bg : RunningBattleground) : Place :=
  { bg.place with freeSlotsForTeam := bg.getFreeSlotsForTeam }

end RunningBattleground

/-! ### Sound pools -/

/-- The pools count their groups, which are not invited, and have room for them; who is invited
and who is in the groups is as it was. -/
structure Sound (base : BattlegroundQueue) (free : Team → ℕ) (s : BattlegroundQueue) : Prop where
  kept : ∀ id, s.isInvited id = base.isInvited id ∧ s.size id = base.size id
  within : ∀ team, s.playerCount team ≤ free team
  uninvited : ∀ team, ∀ id ∈ (s.selectionPools team).selectedGroups, s.isInvited id = false
  counted : ∀ team, s.playerCount team = ((s.selectionPools team).selectedGroups.map s.size).sum

variable {w : World} {base s t : BattlegroundQueue} {free : Team → ℕ} {rest : Team → List ℕ}
  {team other : Team} {id desiredCount n : ℕ} {l : List ℕ}

@[simp] theorem selectionPools_setPool_self (pool : SelectionPool) :
    (s.setPool team pool).selectionPools team = pool :=
  update_self ..

theorem selectionPools_setPool_of_ne (pool : SelectionPool) (h : other ≠ team) :
    (s.setPool team pool).selectionPools other = s.selectionPools other :=
  update_of_ne h ..

theorem Sound.setPool (hs : Sound base free s) {groups : List ℕ} {count : ℕ}
    (hwithin : count ≤ free team) (huninvited : ∀ id ∈ groups, s.isInvited id = false)
    (hcounted : count = (groups.map s.size).sum) :
    Sound base free (s.setPool team ⟨groups, count⟩) := by
  refine ⟨hs.kept, fun other => ?_, fun other => ?_, fun other => ?_⟩
  · by_cases hother : other = team
    · subst hother
      rw [playerCount, selectionPools_setPool_self]
      exact hwithin
    rw [playerCount, selectionPools_setPool_of_ne _ hother]
    exact hs.within other
  · by_cases hother : other = team
    · subst hother
      rw [selectionPools_setPool_self]
      exact huninvited
    rw [selectionPools_setPool_of_ne _ hother]
    exact hs.uninvited other
  by_cases hother : other = team
  · subst hother
    rw [playerCount, selectionPools_setPool_self]
    exact hcounted
  rw [playerCount, selectionPools_setPool_of_ne _ hother]
  exact hs.counted other

theorem sound_initPools (free : Team → ℕ)
    (hkept : ∀ id, s.isInvited id = base.isInvited id ∧ s.size id = base.size id) :
    Sound base free s.initPools := by
  have hpool (team : Team) : s.initPools.selectionPools team = ⟨[], 0⟩ := by
    cases team <;> rfl
  refine ⟨hkept, fun team => ?_, fun team id hid => ?_, fun team => ?_⟩
  · rw [playerCount, hpool]
    exact Nat.zero_le _
  · rw [hpool] at hid
    exact absurd hid not_mem_nil
  rw [playerCount, hpool]
  rfl

theorem select_cases (s : BattlegroundQueue) (team : Team) (id desiredCount : ℕ) :
    (s.isInvited id = false ∧ s.playerCount team + s.size id ≤ desiredCount ∧
      s.select team id desiredCount =
        (s.setPool team ⟨(s.selectionPools team).selectedGroups ++ [id],
          s.playerCount team + s.size id⟩, true)) ∨
      (¬ (s.isInvited id = false ∧ s.playerCount team + s.size id ≤ desiredCount) ∧
        s.select team id desiredCount = (s, decide (s.playerCount team < desiredCount))) := by
  have hinvited : s.isInvited id = false ↔ (s.groups id).isInvitedToBGInstanceGUID = 0 := by
    simp [isInvited]
  rw [hinvited, select, SelectionPool.addGroup]
  by_cases hfits : (s.groups id).isInvitedToBGInstanceGUID = 0 ∧
      (s.selectionPools team).playerCount + (s.groups id).players.card ≤ desiredCount
  · rw [if_pos hfits]
    exact .inl ⟨hfits.1, hfits.2, rfl⟩
  rw [if_neg hfits]
  refine .inr ⟨hfits, Prod.ext ?_ rfl⟩
  simp [setPool]

theorem Sound.select (hs : Sound base free s) (hdesired : desiredCount ≤ free team) :
    Sound base free (s.select team id desiredCount).1 := by
  rcases select_cases s team id desiredCount with ⟨hinvited, hfits, heq⟩ | ⟨-, heq⟩
  · rw [heq]
    refine hs.setPool (by omega) (fun x hx => ?_) ?_
    · rcases mem_append.mp hx with hold | hnew
      · exact hs.uninvited team x hold
      rw [mem_singleton.mp hnew]
      exact hinvited
    rw [hs.counted team]
    simp
  rw [heq]
  exact hs

theorem groupToKick_mem (card : ℕ → ℕ) (size first : ℕ) (l : List ℕ) :
    groupToKick card size first l ∈ first :: l := by
  rw [groupToKick]
  generalize hkick : (first, false) = kick
  have hfirst : kick.1 = first := by rw [← hkick]
  rw [← hfirst]
  clear hkick hfirst
  induction l generalizing kick with
  | nil => exact mem_singleton.mpr rfl
  | cons id l ih =>
    rw [foldl_cons]
    split
    · rcases mem_cons.mp (ih (id, true)) with heq | hmem
      · rw [heq]
        exact mem_cons_of_mem _ mem_cons_self
      · exact mem_cons_of_mem _ (mem_cons_of_mem _ hmem)
    split
    · rcases mem_cons.mp (ih (id, false)) with heq | hmem
      · rw [heq]
        exact mem_cons_of_mem _ mem_cons_self
      · exact mem_cons_of_mem _ (mem_cons_of_mem _ hmem)
    rcases mem_cons.mp (ih kick) with heq | hmem
    · rw [heq]
      exact mem_cons_self
    · exact mem_cons_of_mem _ (mem_cons_of_mem _ hmem)

/-- What kicking does to a pool: nothing if it has no players, or else one of its groups is
gone. -/
theorem kick_cases (hs : Sound base free s) (team : Team) (size : ℕ) :
    (s.playerCount team = 0 ∧ s.kick team size = (s, true)) ∨
      ∃ id ∈ (s.selectionPools team).selectedGroups, 0 < s.playerCount team ∧
        (s.kick team size).1 = s.setPool team
          ⟨(s.selectionPools team).selectedGroups.erase id, s.playerCount team - s.size id⟩ := by
  rw [kick, SelectionPool.kickGroup]
  have hcounted := hs.counted team
  cases hpool : (s.selectionPools team).selectedGroups with
  | nil =>
    rw [hpool] at hcounted
    refine .inl ⟨hcounted, Prod.ext ?_ rfl⟩
    simp [setPool]
  | cons first others =>
    dsimp only
    by_cases hzero : (s.selectionPools team).playerCount = 0
    · rw [if_pos hzero]
      refine .inl ⟨hzero, Prod.ext ?_ rfl⟩
      simp [setPool]
    rw [if_neg hzero]
    have hmem := groupToKick_mem s.size size first (first :: others)
    refine .inr ⟨groupToKick s.size size first (first :: others), ?_, ?_, rfl⟩
    · rcases mem_cons.mp hmem with heq | hmem
      · rw [heq]
        exact mem_cons_self
      · exact hmem
    · exact Nat.pos_of_ne_zero hzero

theorem Sound.kick (hs : Sound base free s) (team : Team) (size : ℕ) :
    Sound base free (s.kick team size).1 := by
  rcases kick_cases hs team size with ⟨-, heq⟩ | ⟨id, hid, -, heq⟩
  · rw [heq]
    exact hs
  have hwithin := hs.within team
  have hsum := sum_map_erase s.size hid
  rw [heq]
  refine hs.setPool (by omega) (fun x hx => hs.uninvited team x (mem_of_mem_erase hx)) ?_
  rw [hs.counted team]
  omega

theorem kick_other (h : other ≠ team) (size : ℕ) :
    (s.kick team size).1.selectionPools other = s.selectionPools other :=
  selectionPools_setPool_of_ne _ h

/-! ### Filling a pool from its queue -/

/-- How many groups are in the queues and the pools. -/
def groupsLeft (rest : Team → List ℕ) (s : BattlegroundQueue) : ℕ :=
  (rest .alliance).length + (s.selectionPools .alliance).selectedGroups.length +
    ((rest .horde).length + (s.selectionPools .horde).selectedGroups.length)

/-- What is true of a pool that was filled from a queue. -/
structure Filled (team : Team) (desiredCount : ℕ) (l : List ℕ) (s : BattlegroundQueue)
    (r : List ℕ × BattlegroundQueue) : Prop where
  other : ∀ other, other ≠ team → r.2.selectionPools other = s.selectionPools other
  length_le : r.1.length + (r.2.selectionPools team).selectedGroups.length ≤
    l.length + (s.selectionPools team).selectedGroups.length
  full : r.1 ≠ [] → desiredCount ≤ r.2.playerCount team
  within : s.playerCount team ≤ desiredCount → r.2.playerCount team ≤ desiredCount

theorem filled_selectWhile (team : Team) (desiredCount : ℕ) (l : List ℕ) (s : BattlegroundQueue) :
    Filled team desiredCount l s (selectWhile team desiredCount l s) := by
  induction l generalizing s with
  | nil => exact ⟨fun _ _ => rfl, Nat.le_refl _, fun h => absurd rfl h, fun h => h⟩
  | cons id l ih =>
    simp only [selectWhile]
    rcases select_cases s team id desiredCount with ⟨-, hfits, heq⟩ | ⟨-, heq⟩
    · rw [heq, if_pos rfl]
      dsimp only
      obtain ⟨hother, hlength, hfull, hwithin⟩ := ih (s.setPool team
        ⟨(s.selectionPools team).selectedGroups ++ [id], s.playerCount team + s.size id⟩)
      refine ⟨fun other h => ?_, ?_, hfull, fun _ => hwithin ?_⟩
      · rw [hother other h, selectionPools_setPool_of_ne _ h]
      · rw [selectionPools_setPool_self, length_append, length_singleton] at hlength
        rw [length_cons]
        omega
      rw [playerCount, selectionPools_setPool_self]
      exact hfits
    rw [heq]
    dsimp only
    by_cases hmore : s.playerCount team < desiredCount
    · rw [if_pos (decide_eq_true hmore)]
      obtain ⟨hother, hlength, hfull, hwithin⟩ := ih s
      refine ⟨hother, ?_, hfull, hwithin⟩
      rw [length_cons]
      omega
    rw [if_neg (by simpa using hmore)]
    exact ⟨fun _ _ => rfl, Nat.le_refl _, fun _ => Nat.le_of_not_lt hmore, fun h => h⟩

theorem Sound.selectWhile (hs : Sound base free s) (hdesired : desiredCount ≤ free team) (l : List ℕ) :
    Sound base free (selectWhile team desiredCount l s).2 := by
  induction l generalizing s with
  | nil => exact hs
  | cons id l ih =>
    simp only [selectWhile]
    split
    · exact ih (hs.select hdesired)
    · exact hs.select hdesired

/-! ### A turn of the loop -/

theorem Sound.diff_nonneg (hs : Sound base free s) (team : Team) : 0 ≤ diff free s team := by
  have hwithin := hs.within team
  rw [diff]
  omega

theorem Sound.kickAndFill (hs : Sound base free s) (team : Team) (l : List ℕ) :
    Sound base free (s.kickAndFill free team l).2 := by
  have hother := hs.diff_nonneg team.other
  simp only [BattlegroundQueue.kickAndFill]
  split
  · exact (hs.kick team _).selectWhile (by omega) l
  · exact hs.kick team _

/-- What a turn does to its pool: a group goes for good if there are players, and else, where the
other side has more places left, nobody comes. -/
theorem kickAndFill_spec (hs : Sound base free s) (hne : other ≠ team) (l : List ℕ) :
    (s.kickAndFill free team l).2.selectionPools other = s.selectionPools other ∧
      (s.kickAndFill free team l).1.length +
          ((s.kickAndFill free team l).2.selectionPools team).selectedGroups.length +
          (if 0 < s.playerCount team then 1 else 0) ≤
        l.length + (s.selectionPools team).selectedGroups.length ∧
      (s.playerCount team = 0 → diff free s team ≤ diff free s team.other →
        (s.kickAndFill free team l).2.playerCount team = 0) := by
  simp only [kickAndFill]
  generalize (diff free s team.other - diff free s team).toNat = size
  rcases kick_cases hs team size with ⟨hzero, heq⟩ | ⟨id, hid, hpos, heq⟩
  · rw [heq, if_pos rfl, hzero]
    dsimp only
    have hfilled := filled_selectWhile team ((free team : ℤ) - diff free s team.other).toNat l s
    refine ⟨hfilled.other other hne, ?_, fun _ hless => ?_⟩
    · have hlength := hfilled.length_le
      rw [if_neg (Nat.lt_irrefl 0)]
      omega
    have hwithin := hfilled.within
    have hteam : diff free s team = free team - s.playerCount team := rfl
    omega
  have hpool : ((s.kick team size).1.selectionPools team).selectedGroups =
      (s.selectionPools team).selectedGroups.erase id := by
    rw [heq, selectionPools_setPool_self]
  have hlength := length_erase_of_mem hid
  have hsome := length_pos_of_mem hid
  rw [if_pos hpos]
  split
  · have hfilled := filled_selectWhile team ((free team : ℤ) - diff free s team.other).toNat l
      (s.kick team size).1
    refine ⟨(hfilled.other other hne).trans (kick_other hne size), ?_, fun h => by omega⟩
    have hle := hfilled.length_le
    rw [hpool] at hle
    omega
  refine ⟨kick_other hne size, ?_, fun h => by omega⟩
  dsimp only
  rw [hpool]
  omega

theorem kickSide_spec (free : Team → ℕ) (s : BattlegroundQueue) :
    diff free s (s.kickSide free) ≤ diff free s (s.kickSide free).other := by
  rw [kickSide]
  split
  · rename_i hless
    exact Int.le_of_lt hless
  rename_i hmore
  exact Int.not_lt.mp hmore

theorem Team.other_ne_self (team : Team) : team.other ≠ team := by
  cases team <;> decide

theorem groupsLeft_update (rest : Team → List ℕ) (s : BattlegroundQueue) (team : Team)
    (left : List ℕ) : groupsLeft (update rest team left) s =
      left.length + (s.selectionPools team).selectedGroups.length +
        ((rest team.other).length + (s.selectionPools team.other).selectedGroups.length) := by
  cases team with
  | alliance => rfl
  | horde =>
    simp only [groupsLeft, Team.other, update_self]
    rw [update_of_ne (by decide)]
    omega

theorem groupsLeft_eq (rest : Team → List ℕ) (s : BattlegroundQueue) (team : Team) :
    groupsLeft rest s = (rest team).length + (s.selectionPools team).selectedGroups.length +
      ((rest team.other).length + (s.selectionPools team.other).selectedGroups.length) := by
  rw [← groupsLeft_update, update_eq_self]

/-- The places left differ by more than one, and there is somebody to kick. -/
def Uneven (free : Team → ℕ) (s : BattlegroundQueue) : Prop :=
  1 < (diff free s .alliance - diff free s .horde).natAbs ∧
    (0 < s.playerCount .horde ∨ 0 < s.playerCount .alliance)

instance : Decidable (Uneven free s) := inferInstanceAs (Decidable (_ ∧ _))

/-- A turn of the loop of `FillPlayersToBG`, and whether the loop goes on. -/
def turn (free : Team → ℕ) (rest : Team → List ℕ) (s : BattlegroundQueue) :
    (Team → List ℕ) × BattlegroundQueue × Bool :=
  let team := s.kickSide free
  let other := diff free s team.other
  let filled := s.kickAndFill free team (rest team)
  let rest := Function.update rest team filled.1
  if filled.2.playerCount team = 0 then
    if (free team : ℤ) ≤ other + 1 then (rest, filled.2, false)
    else (rest, (filled.2.kick team.other (other - diff free s team).toNat).1, true)
  else (rest, filled.2, true)

theorem balance_succ (free : Team → ℕ) (n : ℕ) (rest : Team → List ℕ) (s : BattlegroundQueue) :
    balance free (n + 1) rest s =
      if Uneven free s then
        let next := turn free rest s
        if next.2.2 then balance free n next.1 next.2.1 else next.2.1
      else s := by
  refine if_congr Iff.rfl ?_ rfl
  dsimp only [turn]
  split
  · split <;> rfl
  · rfl

/-- **A turn** keeps the pools sound; it gives up a group for good, or ends the loop with an
empty pool. -/
theorem turn_spec (hs : Sound base free s) (rest : Team → List ℕ) :
    Sound base free (turn free rest s).2.1 ∧ ((turn free rest s).2.2 = true →
        groupsLeft (turn free rest s).1 (turn free rest s).2.1 < groupsLeft rest s) ∧
      ((turn free rest s).2.2 = false → ∃ team, (turn free rest s).2.1.playerCount team = 0) := by
  have hside := kickSide_spec free s
  rw [turn]
  generalize s.kickSide free = team at hside ⊢
  have hfilledSound := hs.kickAndFill team (rest team)
  obtain ⟨hother, hlength, hnone⟩ := kickAndFill_spec hs (Team.other_ne_self team) (rest team)
  generalize s.kickAndFill free team (rest team) = filled at hfilledSound hother hlength hnone ⊢
  obtain ⟨left, t⟩ := filled
  dsimp only at hfilledSound hother hlength hnone ⊢
  -- nobody was there to be kicked only if the other side has more places left
  have hpos : t.playerCount team ≠ 0 ∨ ¬ (free team : ℤ) ≤ diff free s team.other + 1 →
      0 < s.playerCount team := by
    intro h
    by_contra hzero
    have hzero : s.playerCount team = 0 := by omega
    have hteam : diff free s team = free team - s.playerCount team := rfl
    rcases h with h | h
    · exact h (hnone hzero hside)
    · omega
  have hleft (u : BattlegroundQueue) (hu : ∀ x, (u.selectionPools x).selectedGroups.length ≤
        (t.selectionPools x).selectedGroups.length) (h : 0 < s.playerCount team) :
      groupsLeft (update rest team left) u < groupsLeft rest s := by
    rw [groupsLeft_update, groupsLeft_eq rest s team, ← hother]
    rw [if_pos h] at hlength
    have hu1 := hu team
    have hu2 := hu team.other
    omega
  split
  · split
    · rename_i hempty _
      exact ⟨hfilledSound, nofun, fun _ => ⟨team, hempty⟩⟩
    rename_i hempty hmore
    refine ⟨hfilledSound.kick _ _, fun _ => ?_, nofun⟩
    refine hleft _ (fun x => ?_) (hpos (.inr hmore))
    rcases kick_cases hfilledSound team.other
      (diff free s team.other - diff free s team).toNat with ⟨-, heq⟩ | ⟨id, hid, -, heq⟩
    · rw [heq]
    rw [heq]
    by_cases hx : x = team.other
    · rw [hx, selectionPools_setPool_self, length_erase_of_mem hid]
      omega
    · rw [selectionPools_setPool_of_ne _ hx]
  rename_i hsome
  refine ⟨hfilledSound, fun _ => ?_, nofun⟩
  exact hleft t (fun x => Nat.le_refl _) (hpos (.inl hsome))

/-! ### The loop -/

/-- **The loop** keeps the pools sound. -/
theorem sound_balance (hs : Sound base free s) (n : ℕ) (rest : Team → List ℕ) :
    Sound base free (balance free n rest s) := by
  induction n generalizing rest s with
  | zero => exact hs
  | succ n ih =>
    rw [balance_succ]
    split
    · obtain ⟨hsound, -, -⟩ := turn_spec hs rest
      dsimp only
      split
      · exact ih hsound _
      · exact hsound
    · exact hs

/-- **The loop ends** before there are as many turns as groups. -/
theorem balance_fuel (hs : Sound base free s) {m n : ℕ} (hm : groupsLeft rest s < m)
    (hn : groupsLeft rest s < n) : balance free m rest s = balance free n rest s := by
  induction m generalizing n rest s with
  | zero => omega
  | succ m ih =>
    cases n with
    | zero => omega
    | succ n =>
      rw [balance_succ, balance_succ]
      split
      · obtain ⟨hsound, hless, -⟩ := turn_spec hs rest
        dsimp only
        split
        · rename_i hgoes
          have hleft := hless hgoes
          exact ih hsound (by omega) (by omega)
        · rfl
      · rfl

/-- **The loop ends** with the same places left up to one, or with an empty pool. -/
theorem balance_even (hs : Sound base free s) (hn : groupsLeft rest s < n) :
    (diff free (balance free n rest s) .alliance -
        diff free (balance free n rest s) .horde).natAbs ≤ 1 ∨
      ∃ team, (balance free n rest s).playerCount team = 0 := by
  induction n generalizing rest s with
  | zero => omega
  | succ n ih =>
    rw [balance_succ]
    split
    · obtain ⟨hsound, hless, hstop⟩ := turn_spec hs rest
      dsimp only
      split
      · rename_i hgoes
        have hleft := hless hgoes
        exact ih hsound (by omega)
      rename_i hends
      exact .inr (hstop (by simpa using hends))
    rename_i heven
    rw [Uneven, not_and_or, not_or] at heven
    rcases heven with heven | ⟨hhorde, -⟩
    · exact .inl (Nat.not_lt.mp heven)
    · exact .inr ⟨.horde, by omega⟩

/-! ### Both sides in one list -/

theorem Sound.modifyTeam (hs : Sound base free s) (id : ℕ) (side : Team) :
    Sound base free (s.modifyGroup id fun g => { g with team := side }) := by
  have hgroup (x : ℕ) : ((s.modifyGroup id fun g => { g with team := side }).isInvited x =
      s.isInvited x) ∧ (s.modifyGroup id fun g => { g with team := side }).size x = s.size x := by
    by_cases hx : x = id
    · subst hx
      simp [isInvited, size, modifyGroup]
    · simp [isInvited, size, modifyGroup, update_of_ne hx]
  refine ⟨fun x => ?_, hs.within, fun team x hx => ?_, fun team => ?_⟩
  · rw [(hgroup x).1, (hgroup x).2]
    exact hs.kept x
  · rw [(hgroup x).1]
    exact hs.uninvited team x hx
  refine (hs.counted team).trans (congrArg List.sum (map_congr_left fun x _ => ?_))
  exact (hgroup x).2.symm

theorem Sound.fillXGroup {x : BattlegroundQueue × (Team → ℤ)} (hx : Sound base free x.1)
    (bg : Place) (id : ℕ) : Sound base free (BattlegroundQueue.fillXGroup bg free x id).1 := by
  simp only [BattlegroundQueue.fillXGroup]
  split
  · exact hx
  split
  · exact hx.select (Nat.le_refl _)
  · exact (hx.modifyTeam id _).select (Nat.le_refl _)

theorem sound_fillXPlayersToBG (hs : Sound base free s) (bg : Place)
    (hfree : free = bg.freeSlotsForTeam) (b : BracketId) :
    Sound base free (s.fillXPlayersToBG w b bg false).1 := by
  simp only [fillXPlayersToBG, Bool.false_eq_true, if_false]
  split
  · rw [← hfree]
    exact foldlRecOn (motive := fun x : BattlegroundQueue × (Team → ℤ) =>
      Sound base free x.1) _ _ (sound_initPools free hs.kept) fun x hx id _ => hx.fillXGroup bg id
  · exact hs

/-! ### Filling a battleground -/

/-- The first two loops of `FillPlayersToBG`, with what is left of the queues. -/
def firstFill (s : BattlegroundQueue) (bg : Place) (b : BracketId) :
    (Team → List ℕ) × BattlegroundQueue :=
  let alliance := selectWhile .alliance (bg.freeSlotsForTeam .alliance)
    (s.queuedGroups b (.normal .alliance)) s
  let horde := selectWhile .horde (bg.freeSlotsForTeam .horde)
    (s.queuedGroups b (.normal .horde)) alliance.2
  (fun team => match team with | .alliance => alliance.1 | .horde => horde.1, horde.2)

theorem groupsLeft_firstFill (hempty : ∀ team, (s.selectionPools team).selectedGroups = [])
    (bg : Place) (b : BracketId) : groupsLeft (firstFill s bg b).1 (firstFill s bg b).2 ≤
      (s.queuedGroups b (.normal .alliance)).length +
        (s.queuedGroups b (.normal .horde)).length := by
  rw [firstFill]
  have halliance := filled_selectWhile .alliance (bg.freeSlotsForTeam .alliance)
    (s.queuedGroups b (.normal .alliance)) s
  generalize selectWhile .alliance (bg.freeSlotsForTeam .alliance)
    (s.queuedGroups b (.normal .alliance)) s = alliance at halliance ⊢
  have hhorde := filled_selectWhile .horde (bg.freeSlotsForTeam .horde)
    (s.queuedGroups b (.normal .horde)) alliance.2
  generalize selectWhile .horde (bg.freeSlotsForTeam .horde)
    (s.queuedGroups b (.normal .horde)) alliance.2 = horde at hhorde ⊢
  have hlength := halliance.length_le
  have hlength' := hhorde.length_le
  rw [halliance.other .horde (by decide), hempty, length_nil] at hlength'
  rw [hempty, length_nil] at hlength
  simp only [groupsLeft]
  rw [hhorde.other .alliance (by decide)]
  omega

theorem firstFill_spec (hs : Sound base free s) (bg : Place) (hfree : free = bg.freeSlotsForTeam)
    (b : BracketId) : Sound base free (firstFill s bg b).2 ∧
      ∀ team, (firstFill s bg b).1 team ≠ [] →
        free team ≤ (firstFill s bg b).2.playerCount team := by
  subst hfree
  rw [firstFill]
  have halliance := filled_selectWhile .alliance (bg.freeSlotsForTeam .alliance)
    (s.queuedGroups b (.normal .alliance)) s
  have hhorde := filled_selectWhile .horde (bg.freeSlotsForTeam .horde)
    (s.queuedGroups b (.normal .horde)) (selectWhile .alliance (bg.freeSlotsForTeam .alliance)
      (s.queuedGroups b (.normal .alliance)) s).2
  refine ⟨(hs.selectWhile (Nat.le_refl _) _).selectWhile (Nat.le_refl _) _, fun team hleft => ?_⟩
  cases team with
  | alliance =>
    rw [playerCount, hhorde.other .alliance (by decide)]
    exact halliance.full hleft
  | horde => exact hhorde.full hleft

/-- The first filling had no use for more of a queue: it was gone through, or there were no free
slots for its side. -/
def GoneThrough (bg : RunningBattleground) (left : Team → List ℕ) (team : Team) : Prop :=
  bg.getFreeSlotsForTeam team = 0 ∨ left team = []

/-- The players of a team that are invited, with those selected. -/
def total (bg : RunningBattleground) (s : BattlegroundQueue) (team : Team) : ℤ :=
  bg.invited team + s.playerCount team

theorem freeSlots_inProgress (bg : RunningBattleground) (hstatus : bg.place.status ≠ statusWaitJoin) :
    (bg.invited .alliance = bg.invited .horde ∧ ∀ team, bg.getFreeSlotsForTeam team ≤ 1) ∨
      ∃ team, bg.getFreeSlotsForTeam team = 0 := by
  by_cases hprogress : bg.place.status = statusInProgress
  · have hdiff (team : Team) :
        (bg.invited team.other = bg.invited team → bg.getFreeSlotsForTeam team ≤ 1) ∧
          (bg.invited team.other ≠ bg.invited team →
            bg.getFreeSlotsForTeam team ≤ bg.invited team.other - bg.invited team) := by
      rw [RunningBattleground.getFreeSlotsForTeam, if_neg hstatus, if_pos hprogress]
      dsimp only
      constructor
      · intro heq
        rw [if_pos heq]
        omega
      intro hne
      rw [if_neg hne]
      omega
    obtain ⟨halliance, halliance'⟩ := hdiff .alliance
    obtain ⟨hhorde, hhorde'⟩ := hdiff .horde
    simp only [Team.other] at halliance halliance' hhorde hhorde'
    rcases Nat.lt_trichotomy (bg.invited .alliance) (bg.invited .horde) with hless | heq | hmore
    · have hle := hhorde' (by omega)
      exact .inr ⟨.horde, by omega⟩
    · refine .inl ⟨heq, fun team => ?_⟩
      cases team with
      | alliance => exact halliance heq.symm
      | horde => exact hhorde heq
    have hle := halliance' (by omega)
    exact .inr ⟨.alliance, by omega⟩
  refine .inr ⟨.alliance, ?_⟩
  rw [RunningBattleground.getFreeSlotsForTeam, if_neg hstatus, if_neg hprogress]

/-- A pool that is sound leaves the sides even, or a queue was gone through and a pool is empty,
if the places left are even or a pool is empty. -/
theorem even_or_goneThrough {bg : RunningBattleground} {left : Team → List ℕ} {first : BattlegroundQueue}
    (hfirst : ∀ team, left team ≠ [] → bg.getFreeSlotsForTeam team ≤ first.playerCount team)
    (hunchanged : ¬ Uneven bg.getFreeSlotsForTeam first → s = first)
    (hwithin : ∀ team, first.playerCount team ≤ bg.getFreeSlotsForTeam team)
    (hs : Sound base bg.getFreeSlotsForTeam s) (heven : (diff bg.getFreeSlotsForTeam s .alliance -
        diff bg.getFreeSlotsForTeam s .horde).natAbs ≤ 1 ∨ ∃ team, s.playerCount team = 0) :
    (total bg s .alliance - total bg s .horde).natAbs ≤ 1 ∨
      (∃ team, GoneThrough bg left team) ∧ ∃ team, s.playerCount team = 0 := by
  by_cases hstatus : bg.place.status = statusWaitJoin
  · have hdiff (s : BattlegroundQueue) (team : Team) : diff bg.getFreeSlotsForTeam s team =
        bg.place.maxPlayersPerTeam - total bg s team := by
      have hle := bg.invited_le team
      rw [diff, total, RunningBattleground.getFreeSlotsForTeam, if_pos hstatus]
      omega
    by_cases hdone : ∃ team, GoneThrough bg left team
    · rcases heven with heven | hempty
      · rw [hdiff, hdiff] at heven
        exact .inl (by omega)
      · exact .inr ⟨hdone, hempty⟩
    -- both sides are full
    have hfull (team : Team) : diff bg.getFreeSlotsForTeam first team = 0 := by
      have hleft := hfirst team fun hnil => hdone ⟨team, .inr hnil⟩
      have hle := hwithin team
      rw [diff]
      omega
    have hsame : s = first := hunchanged fun huneven => by
      have hmore := huneven.1
      rw [hfull, hfull] at hmore
      omega
    have halliance := hfull .alliance
    have hhorde := hfull .horde
    rw [hdiff] at halliance hhorde
    rw [hsame]
    exact .inl (by omega)
  rcases freeSlots_inProgress bg hstatus with ⟨heq, hone⟩ | ⟨team, hzero⟩
  · have halliance := (hs.within .alliance).trans (hone .alliance)
    have hhorde := (hs.within .horde).trans (hone .horde)
    rw [total, total]
    exact .inl (by omega)
  have hle := hs.within team
  exact .inr ⟨⟨team, .inl hzero⟩, team, by omega⟩

theorem fillPlayersToBG_eq (w : World) (s : BattlegroundQueue) (bg : Place) (b : BracketId)
    (hown : bg.isArena = true ∨ w.crossfactionEnabled = false) : s.fillPlayersToBG w bg b =
      if w.invitationType = 0 then (firstFill s bg b).2 else balance bg.freeSlotsForTeam
          (2 * ((s.queuedGroups b (.normal .alliance)).length +
            (s.queuedGroups b (.normal .horde)).length) + 1)
          (firstFill s bg b).1 (firstFill s bg b).2 := by
  have hmixed : (if bg.isArena then (s, false) else s.fillXPlayersToBG w b bg false) =
      (s, false) := by
    rcases hown with harena | hcross
    · rw [if_pos harena]
    · simp [fillXPlayersToBG, hcross]
  rw [fillPlayersToBG, hmixed]
  rfl

theorem fillPlayersToBG_mixed (s : BattlegroundQueue) (bg : Place) (b : BracketId)
    (harena : bg.isArena = false) (hcross : w.crossfactionEnabled = true) :
    s.fillPlayersToBG w bg b = (s.fillXPlayersToBG w b bg false).1 := by
  have hfilled : (s.fillXPlayersToBG w b bg false).2 = true := by
    simp [fillXPlayersToBG, hcross]
  rw [fillPlayersToBG, harena]
  simp only [Bool.false_eq_true, if_false, hfilled, if_true]

/-- A group that could be selected: it waits for the team, is not invited and not in the pool, and
there are free slots for it. -/
def Selectable (bg : RunningBattleground) (b : BracketId) (s : BattlegroundQueue) (team : Team)
    (id : ℕ) : Prop :=
  id ∈ s.queuedGroups b (.normal team) ∧ s.isInvited id = false ∧
    id ∉ (s.selectionPools team).selectedGroups ∧
      s.playerCount team + s.size id ≤ bg.getFreeSlotsForTeam team

end ZerosCore.Battlegrounds.Queues
