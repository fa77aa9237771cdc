/-
# Players of both sides in one battleground

`BattlegroundQueue::FillXPlayersToBG` and `PreAddPlayers` of `src/server/game/Cfbg/Cfbg.cpp`.
Two variables say how many places are left for the sides, and decide which side a group is put
on.  `PreAddPlayers` returns how many players were left to add, not how many were added, and the
variables are lowered by that; and `AddGroup` says yes to a group that it does not add, if the
pool is not full.

The pools themselves are right in any case: they keep within the free places, and no group is in
both.  The variables are right after the first groups if exactly half of what was to be added was
left, and stay right as long as no group is too large for a side that is not full; then no group
gets another side in vain (`fillXPlayersToBG_right_iff`).
-/

import ZerosCore.Battlegrounds.FilledPools
import ZerosCore.Battlegrounds.QueuedGroups

namespace ZerosCore.Battlegrounds.Queues

open Lib BattlegroundQueue List

variable {w : World} {base s t : BattlegroundQueue} {bg : Place} {b : BracketId} {start : Bool}
  {free : Team → ℕ} {team side : Team} {id maxInTeam : ℕ} {ids : List ℕ}
  {x : BattlegroundQueue × (Team → ℤ)}

/-! ### What `FillXPlayersToBG` does in turn -/

/-- `aliFree` and `hordeFree`. -/
def freePlaces (bg : Place) (start : Bool) (team : Team) : ℕ :=
  if start then bg.maxPlayersPerTeam else bg.freeSlotsForTeam team

/-- Whether `FillXPlayersToBG` fills the pools at all. -/
def FillsBoth (w : World) (s : BattlegroundQueue) (b : BracketId) (bg : Place) (start : Bool) :
    Prop :=
  w.crossfactionEnabled = true ∧ (w.isTesting = true ∨
    bg.minPlayersPerTeam * 2 ≤ (((s.queuedGroups b .mixed).filter fun id => !s.isInvited id).map
      s.size).sum % 256 ∨ start = false)

instance : Decidable (FillsBoth w s b bg start) := inferInstanceAs (Decidable (_ ∧ _))

/-- The groups that are added to their own sides first. -/
def ownGroups (s : BattlegroundQueue) (b : BracketId) : Team → List ℕ
  | .alliance => ((s.queuedGroups b .mixed).filter fun id => !s.isInvited id).filter
      fun id => (s.groups id).oAlliance
  | .horde => ((s.queuedGroups b .mixed).filter fun id => !s.isInvited id).filter
      fun id => !(s.groups id).oAlliance

/-- `m_SmallestOfTeams`. -/
def smallestOfTeams (s : BattlegroundQueue) (b : BracketId) (bg : Place) : ℕ :=
  min (min (freePlaces bg true .alliance) ((ownGroups s b .alliance).map s.size).sum)
    (min (freePlaces bg true .horde) ((ownGroups s b .horde).map s.size).sum)

/-- Before the last loop. -/
def beforeTurns (s : BattlegroundQueue) (b : BracketId) (bg : Place) (start : Bool) :
    BattlegroundQueue × (Team → ℤ) :=
  if start then
    let alliance := s.initPools.preAddPlayers (ownGroups s b .alliance) (smallestOfTeams s b bg)
      (freePlaces bg start .alliance)
    let horde := alliance.1.preAddPlayers (ownGroups s b .horde) (smallestOfTeams s b bg)
      (freePlaces bg start .horde)
    (horde.1, fun team =>
      freePlaces bg start team - match team with | .alliance => alliance.2 | .horde => horde.2)
  else (s.initPools, fun team => freePlaces bg start team)

/-- The groups in the order of the last loop. -/
def turns (s : BattlegroundQueue) (b : BracketId) (bg : Place) (start : Bool) : List ℕ :=
  (beforeTurns s b bg start).1.bySizeDown (s.queuedGroups b .mixed)

theorem fillXPlayersToBG_eq (h : FillsBoth w s b bg start) :
    (s.fillXPlayersToBG w b bg start).1 = ((turns s b bg start).foldl
      (fillXGroup bg (freePlaces bg start)) (beforeTurns s b bg start)).1 := by
  have hif (y z : BattlegroundQueue × Bool) :
      (if FillsBoth w s b bg start then y else z).1 = y.1 := congrArg Prod.fst (if_pos h)
  cases start with
  | true | false => exact hif _ _

/-! ### What should hold -/

/-- The variables say how many places the pools leave. -/
def SlotsRight (free : Team → ℕ) (x : BattlegroundQueue × (Team → ℤ)) : Prop :=
  ∀ team, x.2 team = free team - x.1.playerCount team

/-- A group that has another side is selected for it. -/
def TeamsRight (s t : BattlegroundQueue) : Prop :=
  ∀ id, (t.groups id).team ≠ (s.groups id).team →
    id ∈ (t.selectionPools (t.groups id).team).selectedGroups

/-- No group is in both pools. -/
def Apart (s : BattlegroundQueue) : Prop :=
  ∀ id ∈ (s.selectionPools .alliance).selectedGroups, id ∉ (s.selectionPools .horde).selectedGroups

structure FilledRight (w : World) (s : BattlegroundQueue) (b : BracketId) (bg : Place)
    (start : Bool) : Prop where
  within : ∀ team, (s.fillXPlayersToBG w b bg start).1.playerCount team ≤ freePlaces bg start team
  apart : Apart (s.fillXPlayersToBG w b bg start).1
  slots : SlotsRight (freePlaces bg start) (beforeTurns s b bg start)
  along : Along (fillXGroup bg (freePlaces bg start))
    (fun x id => SlotsRight (freePlaces bg start) (fillXGroup bg (freePlaces bg start) x id) ∧
      TeamsRight x.1 (fillXGroup bg (freePlaces bg start) x id).1)
    (beforeTurns s b bg start) (turns s b bg start)
  teams : TeamsRight s (s.fillXPlayersToBG w b bg start).1

/-! ### When it does -/

/-- What is left of a number if as much as possible is taken off in turn. -/
def leftToAdd (sizes : List ℕ) (maxAdd : ℤ) : ℤ :=
  sizes.foldl (fun (left : ℤ) (size : ℕ) => if size ≤ left then left - size else left) maxAdd

/-- Half of what is added first for either side is left. -/
def HalfLeft (s : BattlegroundQueue) (b : BracketId) (bg : Place) : Prop :=
  ∀ team, 2 * leftToAdd ((s.bySizeDown (ownGroups s b team)).map s.size)
    (smallestOfTeams s b bg) = smallestOfTeams s b bg

/-- A group is passed over: it is invited or selected, or there are enough players. -/
def PassedOver (bg : Place) (s : BattlegroundQueue) (id : ℕ) : Prop :=
  s.isInvited id = true ∨ id ∈ (s.selectionPools .alliance).selectedGroups ∨
    id ∈ (s.selectionPools .horde).selectedGroups ∨
    bg.minPlayersPerTeam ≤ s.playerCount .alliance ∧ bg.minPlayersPerTeam ≤ s.playerCount .horde

instance (s : BattlegroundQueue) (id : ℕ) : Decidable (PassedOver bg s id) :=
  inferInstanceAs (Decidable (_ ∨ _))

/-- The side that a group is put on. -/
def sideFor (x : BattlegroundQueue × (Team → ℤ)) (id : ℕ) : Team :=
  if x.2 .alliance = x.2 .horde then (x.1.groups id).team
  else if x.2 .alliance < x.2 .horde then .horde else .alliance

/-- A group that is not passed over has places left on its side, or nobody has. -/
def TurnOk (bg : Place) (x : BattlegroundQueue × (Team → ℤ)) (id : ℕ) : Prop :=
  ¬ PassedOver bg x.1 id → x.2 (sideFor x id) = 0 ∨ (x.1.size id : ℤ) ≤ x.2 (sideFor x id)

/-! ### The groups that are added first -/

/-- A turn of the loop of `PreAddPlayers`. -/
def preAddGroup (maxInTeam : ℕ) (x : BattlegroundQueue × ℤ) (id : ℕ) : BattlegroundQueue × ℤ :=
  if (x.1.size id : ℤ) ≤ x.2 then
    let added := x.1.select (if (x.1.groups id).oAlliance then .alliance else .horde) id maxInTeam
    (added.1, if added.2 then x.2 - added.1.size id else x.2)
  else x

/-- A group that may be added to a side first. -/
def Addable (base : BattlegroundQueue) (side : Team) (id : ℕ) : Prop :=
  base.isInvited id = false ∧ (if (base.groups id).oAlliance then Team.alliance else .horde) = side

structure PreAdded (base : BattlegroundQueue) (free : Team → ℕ) (side : Team) (ids : List ℕ)
    (x y : BattlegroundQueue × ℤ) : Prop where
  sound : Sound base free y.1
  groups : y.1.groups = x.1.groups
  other : ∀ other, other ≠ side → y.1.selectionPools other = x.1.selectionPools other
  members : ∀ id ∈ (y.1.selectionPools side).selectedGroups,
    id ∈ (x.1.selectionPools side).selectedGroups ∨ id ∈ ids
  count : (y.1.playerCount side : ℤ) + y.2 = x.1.playerCount side + x.2
  left : y.2 = leftToAdd (ids.map base.size) x.2

theorem preAdded_group {x : BattlegroundQueue × ℤ} (hx : Sound base free x.1)
    (hgroups : x.1.groups = base.groups) (hid : Addable base side id)
    (hroom : (x.1.playerCount side : ℤ) + x.2 ≤ free side) :
    PreAdded base free side [id] x (preAddGroup (free side) x id) := by
  obtain ⟨hinvited, hside⟩ := hid
  have hsize := (hx.kept id).2
  rw [preAddGroup]
  split
  · rename_i hsmall
    rw [hgroups, hside]
    rcases select_cases x.1 side id (free side) with ⟨-, hfits, heq⟩ | ⟨hnot, -⟩
    · have hsound : Sound base free (x.1.select side id (free side)).1 :=
        hx.select (Nat.le_refl (free side))
      rw [heq] at hsound ⊢
      refine ⟨hsound, rfl, fun other h => selectionPools_setPool_of_ne _ h, fun y hy => ?_, ?_, ?_⟩
      · rw [selectionPools_setPool_self] at hy
        rcases mem_append.mp hy with hold | hnew
        · exact .inl hold
        · exact .inr hnew
      · change (((x.1.setPool side _).selectionPools side).playerCount : ℤ) +
          (x.2 - (x.1.size id : ℤ)) = _
        rw [selectionPools_setPool_self]
        dsimp only
        omega
      change x.2 - (x.1.size id : ℤ) = _
      rw [hsize] at hsmall ⊢
      exact (if_pos hsmall).symm
    refine absurd ⟨(hx.kept id).1.trans hinvited, ?_⟩ hnot
    omega
  rename_i hlarge
  refine ⟨hx, rfl, fun _ _ => rfl, fun y hy => .inl hy, rfl, ?_⟩
  rw [hsize] at hlarge
  exact (if_neg hlarge).symm

theorem PreAdded.trans {x y z : BattlegroundQueue × ℤ} {ids' : List ℕ}
    (h : PreAdded base free side ids x y) (h' : PreAdded base free side ids' y z) :
    PreAdded base free side (ids ++ ids') x z := by
  refine ⟨h'.sound, h'.groups.trans h.groups, fun other hne =>
    (h'.other other hne).trans (h.other other hne), fun id hid => ?_, h'.count.trans h.count, ?_⟩
  · rcases h'.members id hid with hold | hnew
    · rcases h.members id hold with hold | hnew
      · exact .inl hold
      · exact .inr (mem_append_left _ hnew)
    · exact .inr (mem_append_right _ hnew)
  · rw [h'.left, h.left, leftToAdd, leftToAdd, leftToAdd, map_append, foldl_append]

theorem preAdded_groups {x : BattlegroundQueue × ℤ} (hx : Sound base free x.1)
    (hgroups : x.1.groups = base.groups) (hids : ∀ id ∈ ids, Addable base side id)
    (hroom : (x.1.playerCount side : ℤ) + x.2 ≤ free side) :
    PreAdded base free side ids x (ids.foldl (preAddGroup (free side)) x) := by
  induction ids generalizing x with
  | nil => exact ⟨hx, rfl, fun _ _ => rfl, fun id hid => .inl hid, rfl, rfl⟩
  | cons id ids ih =>
    have hfirst := preAdded_group hx hgroups (hids id mem_cons_self) hroom
    have hrest := ih hfirst.sound (hfirst.groups.trans hgroups)
      (fun y hy => hids y (mem_cons_of_mem id hy)) (by rw [hfirst.count]; exact hroom)
    exact hfirst.trans hrest

/-- **`PreAddPlayers`** for a side, within its places. -/
theorem preAdded_preAddPlayers (hs : Sound base free s) (hgroups : s.groups = base.groups)
    (hids : ∀ id ∈ ids, Addable base side id) (hempty : s.playerCount side = 0) {maxAdd : ℕ}
    (hroom : maxAdd ≤ free side) : PreAdded base free side (s.bySizeDown ids) (s, (maxAdd : ℤ))
      (s.preAddPlayers ids maxAdd (free side)) := by
  refine preAdded_groups hs hgroups (fun id hid => hids id (mem_bySizeDown.mp hid)) ?_
  dsimp only
  omega

theorem addable_ownGroups (s : BattlegroundQueue) (b : BracketId) (side : Team) :
    ∀ id ∈ ownGroups s b side, Addable s side id := by
  intro id hid
  cases side with
  | alliance =>
    obtain ⟨hwaiting, hside⟩ := mem_filter.mp hid
    have hinvited := (mem_filter.mp hwaiting).2
    exact ⟨by simpa using hinvited, if_pos hside⟩
  | horde =>
    obtain ⟨hwaiting, hside⟩ := mem_filter.mp hid
    have hinvited := (mem_filter.mp hwaiting).2
    exact ⟨by simpa using hinvited, if_neg (by simpa using hside)⟩

theorem smallestOfTeams_le (s : BattlegroundQueue) (b : BracketId) (bg : Place) (side : Team) :
    smallestOfTeams s b bg ≤ freePlaces bg true side := by
  cases side with
  | alliance => exact (Nat.min_le_left _ _).trans (Nat.min_le_left _ _)
  | horde => exact (Nat.min_le_right _ _).trans (Nat.min_le_left _ _)

theorem bySizeDown_congr (h : s.size = t.size) (l : List ℕ) : s.bySizeDown l = t.bySizeDown l := by
  rw [bySizeDown, bySizeDown, h]

/-- **Before the last loop** the pools are sound and apart, and the variables are right if exactly
half of what was to be added is left. -/
theorem beforeTurns_spec (s : BattlegroundQueue) (b : BracketId) (bg : Place) (start : Bool) :
    Sound s (freePlaces bg start) (beforeTurns s b bg start).1 ∧
      Apart (beforeTurns s b bg start).1 ∧ (beforeTurns s b bg start).1.groups = s.groups ∧
      (SlotsRight (freePlaces bg start) (beforeTurns s b bg start) ↔
        (start = true → HalfLeft s b bg)) := by
  have hinit : Sound s (freePlaces bg start) s.initPools := sound_initPools _ fun id => ⟨rfl, rfl⟩
  have hpool (team : Team) : s.initPools.selectionPools team = ⟨[], 0⟩ := by
    cases team <;> rfl
  have hcount (team : Team) : s.initPools.playerCount team = 0 := by
    rw [playerCount, hpool]
  cases start with
  | false =>
    refine ⟨hinit, fun id hid => ?_, rfl, ⟨(fun _ h => by cases h), fun _ team => ?_⟩⟩
    · change id ∈ (s.initPools.selectionPools .alliance).selectedGroups at hid
      exact absurd hid not_mem_nil
    change (freePlaces bg false team : ℤ) = freePlaces bg false team - s.initPools.playerCount team
    rw [hcount]
    omega
  | true =>
    have halliance := preAdded_preAddPlayers hinit rfl (addable_ownGroups s b .alliance)
      (hcount .alliance) (smallestOfTeams_le s b bg .alliance)
    rw [beforeTurns, if_pos rfl]
    dsimp only
    generalize s.initPools.preAddPlayers (ownGroups s b .alliance) (smallestOfTeams s b bg)
      (freePlaces bg true .alliance) = alliance at halliance ⊢
    have hempty : alliance.1.selectionPools .horde = ⟨[], 0⟩ :=
      (halliance.other .horde (by decide)).trans (hpool .horde)
    have hhorde := preAdded_preAddPlayers halliance.sound halliance.groups
      (addable_ownGroups s b .horde) (by rw [playerCount, hempty])
      (smallestOfTeams_le s b bg .horde)
    generalize alliance.1.preAddPlayers (ownGroups s b .horde) (smallestOfTeams s b bg)
      (freePlaces bg true .horde) = horde at hhorde ⊢
    have hkept : horde.1.selectionPools .alliance = alliance.1.selectionPools .alliance :=
      hhorde.other .alliance (by decide)
    refine ⟨hhorde.sound, fun id hid hid' => ?_, hhorde.groups.trans halliance.groups, ?_⟩
    · rw [hkept] at hid
      have hown : id ∈ ownGroups s b .alliance := by
        rcases halliance.members id hid with hold | hnew
        · rw [hpool] at hold
          exact absurd hold not_mem_nil
        · exact mem_bySizeDown.mp hnew
      have hown' : id ∈ ownGroups s b .horde := by
        rcases hhorde.members id hid' with hold | hnew
        · rw [hempty] at hold
          exact absurd hold not_mem_nil
        · exact mem_bySizeDown.mp hnew
      have hside := (addable_ownGroups s b .alliance id hown).2
      rw [(addable_ownGroups s b .horde id hown').2] at hside
      cases hside
    have hleft := halliance.left
    have hleft' := hhorde.left
    have hsum := halliance.count
    have hsum' := hhorde.count
    rw [bySizeDown_congr (funext fun id => (halliance.sound.kept id).2)] at hleft'
    dsimp only at hsum hsum' hleft hleft'
    rw [hcount] at hsum
    rw [show alliance.1.playerCount .horde = 0 by rw [playerCount, hempty]] at hsum'
    have hsame : horde.1.playerCount .alliance = alliance.1.playerCount .alliance := by
      rw [playerCount, hkept, playerCount]
    constructor
    · intro hright _ team
      have hteam := hright team
      cases team with
      | alliance =>
        dsimp only at hteam
        change 2 * leftToAdd ((s.initPools.bySizeDown (ownGroups s b .alliance)).map s.size)
          (smallestOfTeams s b bg) = _
        omega
      | horde =>
        dsimp only at hteam
        change 2 * leftToAdd ((s.bySizeDown (ownGroups s b .horde)).map s.size)
          (smallestOfTeams s b bg) = _
        omega
    intro hhalf team
    have hteam := hhalf rfl team
    cases team with
    | alliance =>
      change 2 * leftToAdd ((s.initPools.bySizeDown (ownGroups s b .alliance)).map s.size)
        (smallestOfTeams s b bg) = _ at hteam
      dsimp only
      omega
    | horde =>
      dsimp only
      omega

/-! ### A turn of the last loop -/

/-- The group has the side that it is put on. -/
def onSide (x : BattlegroundQueue × (Team → ℤ)) (id : ℕ) : BattlegroundQueue :=
  if x.2 .alliance = x.2 .horde then x.1
  else x.1.modifyGroup id fun g => { g with team := sideFor x id }

theorem onSide_spec (x : BattlegroundQueue × (Team → ℤ)) (id : ℕ) :
    ((onSide x id).groups id).team = sideFor x id ∧
      (∀ id', id' ≠ id → (onSide x id).groups id' = x.1.groups id') ∧
      (onSide x id).selectionPools = x.1.selectionPools ∧
      ∀ base free, Sound base free x.1 → Sound base free (onSide x id) := by
  by_cases heq : x.2 .alliance = x.2 .horde
  · have hside : onSide x id = x.1 := if_pos heq
    rw [hside]
    exact ⟨(if_pos heq).symm, fun _ _ => rfl, rfl, fun _ _ h => h⟩
  have hside : onSide x id = x.1.modifyGroup id fun g => { g with team := sideFor x id } :=
    if_neg heq
  rw [hside]
  refine ⟨?_, fun id' h => groups_modifyGroup_of_ne _ h, rfl, fun _ _ h => h.modifyTeam id _⟩
  rw [groups_modifyGroup_self]

theorem fillXGroup_eq (bg : Place) (free : Team → ℕ) (x : BattlegroundQueue × (Team → ℤ))
    (id : ℕ) :
    fillXGroup bg free x id =
      if PassedOver bg x.1 id then x
      else
        let added := (onSide x id).select (sideFor x id) id (free (sideFor x id))
        (added.1, if added.2 then
          Function.update x.2 (sideFor x id) (x.2 (sideFor x id) - added.1.size id) else x.2) := by
  obtain ⟨s, vfree⟩ := x
  rw [fillXGroup]
  refine if_congr Iff.rfl rfl ?_
  have hteam := (onSide_spec (s, vfree) id).1
  have hside : (if vfree .alliance = vfree .horde then s
      else s.modifyGroup id fun g =>
        { g with team := if vfree .alliance < vfree .horde then .horde else .alliance }) =
        onSide (s, vfree) id := by
    refine ite_congr rfl (fun _ => rfl) fun hne => ?_
    have hne' : ¬ (vfree .alliance = vfree .horde) := hne
    rw [sideFor, if_neg hne']
  dsimp only
  rw [hside, hteam]

theorem slotsRight_selected (hslots : SlotsRight free x)
    (hpools : t.selectionPools = x.1.selectionPools) (side : Team) (id : ℕ) :
    SlotsRight free (t.setPool side ⟨(t.selectionPools side).selectedGroups ++ [id],
      t.playerCount side + t.size id⟩, Function.update x.2 side (x.2 side - t.size id)) := by
  intro team
  have hcount : t.playerCount side = x.1.playerCount side := by
    rw [playerCount, hpools, playerCount]
  by_cases hteam : team = side
  · subst hteam
    have hright := hslots team
    dsimp only
    rw [playerCount, selectionPools_setPool_self, Function.update_self]
    dsimp only
    omega
  dsimp only
  rw [playerCount, selectionPools_setPool_of_ne _ hteam, hpools, Function.update_of_ne hteam]
  exact hslots team

/-- **A turn** keeps the variables right, and gives no group another side in vain, exactly if the
group has places left on its side or nobody has. -/
theorem fillXGroup_right_iff (hx : Sound base free x.1) (hslots : SlotsRight free x) (id : ℕ) :
    SlotsRight free (fillXGroup bg free x id) ∧ TeamsRight x.1 (fillXGroup bg free x id).1 ↔
      TurnOk bg x id := by
  rw [fillXGroup_eq]
  by_cases hpassed : PassedOver bg x.1 id
  · rw [if_pos hpassed]
    exact iff_of_true ⟨hslots, fun id' h => absurd rfl h⟩ fun h => absurd hpassed h
  rw [if_neg hpassed, TurnOk]
  obtain ⟨hteam, hothers, hpools, hsound⟩ := onSide_spec x id
  have ht := hsound base free hx
  have hinvited : (onSide x id).isInvited id = false := by
    rw [(ht.kept id).1, ← (hx.kept id).1, ← Bool.not_eq_true]
    exact fun h => hpassed (.inl h)
  have hsize : (onSide x id).size id = x.1.size id := by
    rw [(ht.kept id).2, (hx.kept id).2]
  have hcount (team : Team) : (onSide x id).playerCount team = x.1.playerCount team := by
    rw [playerCount, hpools, playerCount]
  have hv := hslots (sideFor x id)
  have hwithin := hx.within (sideFor x id)
  dsimp only
  rcases select_cases (onSide x id) (sideFor x id) id (free (sideFor x id)) with
    ⟨-, hfits, heq⟩ | ⟨hnot, heq⟩
  · rw [heq, if_pos rfl]
    rw [hcount, hsize] at hfits
    refine iff_of_true ⟨slotsRight_selected hslots hpools _ id, fun id' hchanged => ?_⟩
      fun _ => .inr (by omega)
    have hid : id' = id := by
      by_contra hne
      exact hchanged (congrArg GroupQueueInfo.team (hothers id' hne))
    subst hid
    change id' ∈ (((onSide x id').setPool (sideFor x id') _).selectionPools
      ((onSide x id').groups id').team).selectedGroups
    rw [hteam, selectionPools_setPool_self]
    exact mem_append_right _ (mem_singleton.mpr rfl)
  rw [heq]
  have hlarge : free (sideFor x id) < x.1.playerCount (sideFor x id) + x.1.size id := by
    rw [hcount, hsize] at hnot
    by_contra hle
    exact hnot ⟨hinvited, by omega⟩
  rw [hcount]
  by_cases hmore : x.1.playerCount (sideFor x id) < free (sideFor x id)
  · rw [if_pos (decide_eq_true hmore)]
    refine iff_of_false (fun h => ?_) fun h => ?_
    · have hside := h.1 (sideFor x id)
      dsimp only at hside
      rw [Function.update_self, hcount, hsize] at hside
      omega
    · rcases h hpassed with hzero | hle <;> omega
  rw [if_neg (by simpa using hmore)]
  refine iff_of_true ⟨fun team => ?_, fun id' hchanged => ?_⟩ fun _ => .inl (by omega)
  · dsimp only
    rw [hcount]
    exact hslots team
  -- the other side is full as well, so that the group keeps its side
  have heven : x.2 .alliance = x.2 .horde := by
    have halliance := hslots .alliance
    have hhorde := hslots .horde
    have hle := hx.within .alliance
    have hle' := hx.within .horde
    by_contra hne
    rw [sideFor, if_neg hne] at hmore
    split at hmore <;> omega
  exact absurd (by rw [onSide, if_pos heven]) hchanged

theorem pools_fillXGroup (hx : Apart x.1) (id : ℕ) : Apart (fillXGroup bg free x id).1 ∧
      ∀ team, ∀ id' ∈ (x.1.selectionPools team).selectedGroups,
        id' ∈ ((fillXGroup bg free x id).1.selectionPools team).selectedGroups := by
  rw [fillXGroup_eq]
  by_cases hpassed : PassedOver bg x.1 id
  · rw [if_pos hpassed]
    exact ⟨hx, fun _ _ h => h⟩
  rw [if_neg hpassed]
  obtain ⟨-, -, hpools, -⟩ := onSide_spec x id
  rcases select_cases (onSide x id) (sideFor x id) id (free (sideFor x id)) with
    ⟨-, -, heq⟩ | ⟨-, heq⟩
  · rw [heq]
    rw [PassedOver, not_or, not_or, not_or] at hpassed
    obtain ⟨-, halliance, hhorde, -⟩ := hpassed
    rw [hpools]
    generalize sideFor x id = side
    refine ⟨fun id' hmem hmem' => ?_, fun team id' hmem => ?_⟩
    · cases side with
      | alliance =>
        rw [selectionPools_setPool_of_ne _ (by decide), hpools] at hmem'
        rcases mem_append.mp hmem with hold | hnew
        · exact hx id' hold hmem'
        · exact hhorde (mem_singleton.mp hnew ▸ hmem')
      | horde =>
        rw [selectionPools_setPool_of_ne _ (by decide), hpools] at hmem
        rcases mem_append.mp hmem' with hold | hnew
        · exact hx id' hmem hold
        · exact halliance (mem_singleton.mp hnew ▸ hmem)
    by_cases hteam : team = side
    · subst hteam
      rw [selectionPools_setPool_self]
      exact mem_append_left _ hmem
    rw [selectionPools_setPool_of_ne _ hteam, hpools]
    exact hmem
  rw [heq]
  simp only [Apart, hpools]
  exact ⟨hx, fun _ _ h => h⟩

/-! ### The whole routine -/

/-- **Both sides in one battleground.**  Whatever the mixed queue holds and whatever is free: the
pools keep within the free places and no group is in both, and all else holds, the variables and
the sides of the groups, exactly if half of what is added first is left, and in no turn of the
last loop a group is too large for a side that is not full. -/
theorem fillXPlayersToBG_right_iff (w : World) (s : BattlegroundQueue) (b : BracketId)
    (bg : Place) (start : Bool) : (FillsBoth w s b bg start → FilledRight w s b bg start) ↔
      (FillsBoth w s b bg start → (start = true → HalfLeft s b bg) ∧
        Along (fillXGroup bg (freePlaces bg start)) (TurnOk bg) (beforeTurns s b bg start)
          (turns s b bg start)) := by
  refine forall_congr' fun hfills => ?_
  obtain ⟨hsound, hapart, hgroups, hhalf⟩ := beforeTurns_spec s b bg start
  have hresult := fillXPlayersToBG_eq hfills
  have hloop : Sound s (freePlaces bg start) ((turns s b bg start).foldl
      (fillXGroup bg (freePlaces bg start)) (beforeTurns s b bg start)).1 ∧
        Apart ((turns s b bg start).foldl (fillXGroup bg (freePlaces bg start))
          (beforeTurns s b bg start)).1 :=
    foldlRecOn (motive := fun x : BattlegroundQueue × (Team → ℤ) =>
      Sound s (freePlaces bg start) x.1 ∧ Apart x.1) _ _ ⟨hsound, hapart⟩
      fun x hx id _ => ⟨hx.1.fillXGroup bg id, (pools_fillXGroup hx.2 id).1⟩
  have halong (hslots : SlotsRight (freePlaces bg start) (beforeTurns s b bg start)) :
      Along (fillXGroup bg (freePlaces bg start)) _ (beforeTurns s b bg start)
        (turns s b bg start) ↔ Along _ (TurnOk bg) _ _ :=
    Along.congr_of_invariant
      (I := fun x => Sound s (freePlaces bg start) x.1 ∧ SlotsRight (freePlaces bg start) x)
      (fun x id hx => fillXGroup_right_iff hx.1 hx.2 id)
      (fun x id hx h => ⟨hx.1.fillXGroup bg id, h.1⟩) ⟨hsound, hslots⟩
  constructor
  · intro h
    exact ⟨hhalf.mp h.slots, (halong h.slots).mp h.along⟩
  rintro ⟨hleft, hturns⟩
  have hslots := hhalf.mpr hleft
  have hright := (halong hslots).mpr hturns
  refine ⟨?_, ?_, hslots, hright, ?_⟩
  · rw [hresult]
    exact hloop.1.within
  · rw [hresult]
    exact hloop.2
  rw [hresult]
  have hkept := Along.invariant_foldl (I := fun x => Apart x.1 ∧ TeamsRight s x.1)
    (fun x id hx h => ?_) ⟨hapart, fun id hchanged => ?_⟩ hright
  · exact hkept.2
  · obtain ⟨hapart', hgrows⟩ := pools_fillXGroup hx.1 id
    refine ⟨hapart', fun id' hchanged => ?_⟩
    by_cases hturn : ((fillXGroup bg (freePlaces bg start) x id).1.groups id').team =
        (x.1.groups id').team
    · rw [hturn] at hchanged ⊢
      exact hgrows _ id' (hx.2 id' hchanged)
    · exact h.2 id' hturn
  rw [hgroups] at hchanged
  exact absurd rfl hchanged

/-- A group of four, and a battleground that goes on with three places on either side: the pool is
not full, so that the group counts as added, and the variable says one less than none. -/
theorem slots_not_counted :
    let w : World := { noBattlegrounds with crossfactionEnabled := true }
    let s : BattlegroundQueue :=
      { BattlegroundQueue.initial with
        groups := fun _ => { (default : GroupQueueInfo) with players := {1, 2, 3, 4} }
        queuedGroups := fun _ i => if i = .mixed then [0] else [] }
    let bg : Place := ⟨1, 1, 0, 3, false, false, fun _ => 3, 5, 10⟩
    ¬ (FillsBoth w s 0 bg false → FilledRight w s 0 bg false) := by
  intro w s bg h
  have hslots := (h (by decide)).along.1.1 .alliance
  exact absurd hslots (by decide)

end ZerosCore.Battlegrounds.Queues
