/-
# The graveyards of a battlefield

The spirit guide system of `src/server/game/Battlefield/Battlefield.cpp`.  `GiveControlTo` asks
that neither team is `NULL`, which is the Alliance, and a player who asks at the guides of two
graveyards waits at both.  All is right in a run without these (`graveyards_right`).
-/

import ZerosCore.Battlefields.CapturePoint
import ZerosCore.Lib.Run

namespace ZerosCore.Battlefields.Graveyards

open CapturePoints (TeamId)
open Lib

structure BfGraveyard where
  controlTeam : TeamId
  graveyardId : ℕ
  spiritGuide : ℕ × ℕ
  resurrectQueue : Finset ℕ := ∅

namespace BfGraveyard

variable (g : BfGraveyard)

def hasNpc (creatures : Finset ℕ) (guid : ℕ) : Bool :=
  g.spiritGuide.1 ≠ 0 ∧ g.spiritGuide.2 ≠ 0 ∧
    g.spiritGuide.1 ∈ creatures ∧ g.spiritGuide.2 ∈ creatures ∧
      (g.spiritGuide.1 = guid ∨ g.spiritGuide.2 = guid)

def hasPlayer (guid : ℕ) : Bool := guid ∈ g.resurrectQueue

def addPlayer (guid : ℕ) : BfGraveyard :=
  { g with resurrectQueue := insert guid g.resurrectQueue }

def removePlayer (guid : ℕ) : BfGraveyard :=
  { g with resurrectQueue := g.resurrectQueue.erase guid }

/-- `TEAM_ALLIANCE` is 0, as `NULL` is. -/
def giveControlTo (team : TeamId) : BfGraveyard :=
  if team ≠ .alliance ∧ g.controlTeam ≠ .alliance then { g with controlTeam := team } else g

end BfGraveyard

/-- `m_GraveyardList`, with its null pointers. -/
abbrev GraveyardVect := List (Option BfGraveyard)

def getGraveyardById (id : ℕ) (gs : GraveyardVect) : Option BfGraveyard := gs[id]?.join

variable (P : BfGraveyard → Bool) (f : BfGraveyard → BfGraveyard)

/-- The first graveyard with `P`.  The index of the loops is a `uint8`. -/
def found (gs : GraveyardVect) : Option ℕ := (gs.take 256).findIdx? (·.any P)

/-- A loop that stops at the first graveyard with `P`, if it ends. -/
def atFirst (gs : GraveyardVect) : Option GraveyardVect :=
  match found P gs with
  | some i => some (gs.set i ((getGraveyardById i gs).map f))
  | none => if gs.length ≤ 255 then some gs else none

def addPlayerToResurrectQueue (creatures : Finset ℕ) (npcGuid playerGuid : ℕ) :
    GraveyardVect → Option GraveyardVect :=
  atFirst (·.hasNpc creatures npcGuid) (·.addPlayer playerGuid)

/-- The aura of the wait is removed with it, which removes the player once more. -/
def removePlayerFromResurrectQueue (aura : Bool) (playerGuid : ℕ) (gs : GraveyardVect) :
    Option GraveyardVect :=
  let once := atFirst (·.hasPlayer playerGuid) (·.removePlayer playerGuid)
  if aura then (once gs).bind once else once gs

def cleared : GraveyardVect → GraveyardVect :=
  List.map (Option.map ({ · with resurrectQueue := ∅ }))

/-- The tick of `Update`. -/
def resurrect (gs : GraveyardVect) : Option GraveyardVect :=
  if gs.length ≤ 255 then some (cleared gs) else none

/-- The closest graveyard yet, and `maxdist`. -/
def closer (team : TeamId) (dist : ℕ → ℚ) (closest : Option BfGraveyard × ℚ) :
    Option BfGraveyard → Option BfGraveyard × ℚ
  | none => closest
  | some g =>
    if g.controlTeam ≠ team then closest
    else if dist g.graveyardId < closest.2 ∨ closest.2 < 0 then (some g, dist g.graveyardId)
    else closest

def getClosestGraveYard (team : TeamId) (dist : ℕ → ℚ) (gs : GraveyardVect) :
    Option (Option ℕ) :=
  if gs.length ≤ 255 then
    some ((gs.foldl (closer team dist) (none, -1)).1.map BfGraveyard.graveyardId)
  else none

def waiting (guid : ℕ) (gs : GraveyardVect) : ℕ := gs.countP (·.any (·.hasPlayer guid))

def control : GraveyardVect → List (Option TeamId) :=
  List.map (Option.map BfGraveyard.controlTeam)

/-- The calls, with the players who are found, the creatures there are, and whether the player has
the aura.  Who leaves the zone is removed. -/
inductive Call where
  | giveControlTo (online : Finset ℕ) (id : ℕ) (team : TeamId)
  | addPlayerToResurrectQueue (creatures : Finset ℕ) (npcGuid playerGuid : ℕ)
  | removePlayerFromResurrectQueue (aura : Bool) (playerGuid : ℕ)
  | resurrect

def serve (gs : GraveyardVect) : Call → Option GraveyardVect
  | .giveControlTo online id team =>
    match getGraveyardById id gs with
    | none => some gs
    | some g =>
      -- `RelocateDeadPlayers` looks for the closest graveyard
      if 255 < gs.length ∧ (g.resurrectQueue ∩ online).Nonempty then none
      else some (gs.set id (some (g.giveControlTo team)))
  | .addPlayerToResurrectQueue creatures npcGuid guid =>
    addPlayerToResurrectQueue creatures npcGuid guid gs
  | .removePlayerFromResurrectQueue aura guid => removePlayerFromResurrectQueue aura guid gs
  | .resurrect => resurrect gs

def step (s : Option GraveyardVect) (call : Call) : Option GraveyardVect := s.bind (serve · call)

def given (gs : GraveyardVect) : Call → List (Option TeamId)
  | .giveControlTo _ id team =>
    if (getGraveyardById id gs).isSome then (control gs).set id (some team) else control gs
  | _ => control gs

/-- Who waits no more. -/
def Call.Ends (p : ℕ) : Call → Prop
  | .removePlayerFromResurrectQueue _ guid => guid = p
  | .resurrect => True
  | _ => False

/-- A team that has a graveyard finds one of its own. -/
def Finds (gs : GraveyardVect) : Prop :=
  ∀ team dist, (∃ g, some g ∈ gs ∧ g.controlTeam = team) →
    ∃ g, some g ∈ gs ∧ g.controlTeam = team ∧
      getClosestGraveYard team dist gs = some (some g.graveyardId)

/-- The calls before kept the graveyards right, and this one does.  A tick resurrects a player once
for each queue. -/
def Right (s : Option GraveyardVect) (call : Call) : Prop :=
  ∃ gs gs', s = some gs ∧ serve gs call = some gs' ∧ control gs' = given gs call ∧ Finds gs' ∧
    ∀ p, waiting p gs ≤ 1 ∧ waiting p gs' ≤ 1 ∧ (call.Ends p → waiting p gs' = 0)

/-- No graveyard is given to the Alliance or taken from it, and a player who waits asks no guide
of another graveyard. -/
def Regular (s : Option GraveyardVect) (call : Call) : Prop :=
  ∀ gs ∈ s, match call with
    | .giveControlTo _ id team => ∀ g ∈ getGraveyardById id gs,
        team = g.controlTeam ∨ team ≠ .alliance ∧ g.controlTeam ≠ .alliance
    | .addPlayerToResurrectQueue creatures npcGuid p => waiting p gs = 0 ∨
        ∀ id ∈ found (·.hasNpc creatures npcGuid) gs, ∀ g ∈ getGraveyardById id gs,
          g.hasPlayer p = true
    | _ => True

variable {P f} {gs : GraveyardVect} {i : ℕ} {g : BfGraveyard}

theorem getElem_of_get (h : getGraveyardById i gs = some g) : ∃ hi : i < gs.length, gs[i] = some g :=
  List.getElem?_eq_some_iff.mp (Option.join_eq_some_iff.mp h)

theorem waiting_set (h : getGraveyardById i gs = some g) (g' : BfGraveyard) (q : ℕ) :
    waiting q (gs.set i (some g')) + (if g.hasPlayer q then 1 else 0) =
      waiting q gs + if g'.hasPlayer q then 1 else 0 := by
  obtain ⟨hi, hget⟩ := getElem_of_get h
  have hle := List.boole_getElem_le_countP (p := (·.any (·.hasPlayer q))) hi
  unfold waiting
  rw [List.countP_set hi]
  rw [hget, Option.any_some] at hle ⊢
  rw [Option.any_some]
  omega

theorem control_set (h : getGraveyardById i gs = some g) {g' : BfGraveyard}
    (hteam : g'.controlTeam = g.controlTeam) : control (gs.set i (some g')) = control gs := by
  obtain ⟨hi, hget⟩ := getElem_of_get h
  have hsame : (some g').map BfGraveyard.controlTeam = gs[i].map BfGraveyard.controlTeam := by
    rw [hget, Option.map_some, hteam, Option.map_some]
  unfold control
  rw [List.map_set, hsame, ← List.map_set, List.set_getElem_self]

/-- **What a loop does.** -/
theorem atFirst_spec (hsmall : gs.length ≤ 255) :
    (∃ i g, found P gs = some i ∧ getGraveyardById i gs = some g ∧ P g = true ∧
      atFirst P f gs = some (gs.set i (some (f g)))) ∨
    (∀ x ∈ gs, x.any P = false) ∧ atFirst P f gs = some gs := by
  unfold atFirst
  cases hfound : found P gs with
  | none =>
    unfold found at hfound
    rw [List.take_of_length_le (by omega), List.findIdx?_eq_none_iff] at hfound
    exact .inr ⟨hfound, if_pos hsmall⟩
  | some i =>
    have hat := hfound
    unfold found at hat
    rw [List.take_of_length_le (by omega), List.findIdx?_eq_some_iff_getElem] at hat
    obtain ⟨hi, hany, -⟩ := hat
    obtain ⟨g, hget, hP⟩ := Option.any_eq_true _ _ |>.mp hany
    have hgraveyard : getGraveyardById i gs = some g := by
      rw [getGraveyardById, List.getElem?_eq_getElem hi, hget]
      rfl
    dsimp only
    rw [hgraveyard]
    exact .inl ⟨i, g, rfl, hgraveyard, hP, rfl⟩

theorem waiting_eq_zero {p : ℕ} : waiting p gs = 0 ↔ ∀ x ∈ gs, x.any (·.hasPlayer p) = false := by
  simp [waiting, List.countP_eq_zero]

theorem waiting_cleared (p : ℕ) : waiting p (cleared gs) = 0 := by
  rw [waiting_eq_zero]
  intro x hx
  obtain ⟨y, -, rfl⟩ := List.mem_map.mp hx
  cases y <;> simp [BfGraveyard.hasPlayer]

theorem control_cleared : control (cleared gs) = control gs := by
  unfold control cleared
  rw [List.map_map]
  exact List.map_congr_left fun x _ => by cases x <;> rfl

/-- One round of the removal. -/
theorem atFirst_remove (hsmall : gs.length ≤ 255) (p : ℕ) : ∃ gs',
    atFirst (·.hasPlayer p) (·.removePlayer p) gs = some gs' ∧ gs'.length = gs.length ∧
      control gs' = control gs ∧
        ∀ q, waiting q gs' = waiting q gs - if q = p then 1 else 0 := by
  rcases atFirst_spec hsmall with ⟨i, g, -, hget, hhas, heq⟩ | ⟨hnone, heq⟩
  · refine ⟨_, heq, List.length_set .., control_set hget rfl, fun q => ?_⟩
    have hcount := waiting_set hget (g.removePlayer p) q
    simp only [BfGraveyard.hasPlayer, BfGraveyard.removePlayer, decide_eq_true_eq,
      Finset.mem_erase] at hhas hcount
    split_ifs with hq
    · subst hq
      simp only [ne_eq, not_true_eq_false, false_and, if_false, if_pos hhas] at hcount
      exact Nat.eq_sub_of_add_eq hcount
    · simp only [ne_eq, hq, not_false_eq_true, true_and] at hcount
      exact Nat.add_right_cancel hcount
  · refine ⟨gs, heq, rfl, rfl, fun q => ?_⟩
    split_ifs with hq
    · rw [hq, waiting_eq_zero.mpr hnone]
    · rfl

theorem remove_spec (hsmall : gs.length ≤ 255) (aura : Bool) (p : ℕ) : ∃ gs',
    removePlayerFromResurrectQueue aura p gs = some gs' ∧ gs'.length = gs.length ∧
      control gs' = control gs ∧
        ∀ q, waiting q gs' ≤ waiting q gs - if q = p then 1 else 0 := by
  obtain ⟨gs', heq, hlength, hcontrol, hwaiting⟩ := atFirst_remove hsmall p
  unfold removePlayerFromResurrectQueue
  dsimp only
  rw [heq]
  cases aura with
  | false => exact ⟨gs', rfl, hlength, hcontrol, fun q => (hwaiting q).le⟩
  | true =>
    obtain ⟨gs'', heq', hlength', hcontrol', hwaiting'⟩ :=
      atFirst_remove (hlength.trans_le hsmall) p
    refine ⟨gs'', heq', hlength'.trans hlength, hcontrol'.trans hcontrol, fun q => ?_⟩
    rw [hwaiting', hwaiting]
    omega

variable (gs) in
theorem foldl_closer (team : TeamId) (dist : ℕ → ℚ) :
    ((gs.foldl (closer team dist) (none, -1)).1 = none →
      (gs.foldl (closer team dist) (none, -1)).2 < 0 ∧ ∀ g, some g ∈ gs → g.controlTeam ≠ team) ∧
    ∀ g, (gs.foldl (closer team dist) (none, -1)).1 = some g →
      some g ∈ gs ∧ g.controlTeam = team := by
  induction gs using List.reverseRecOn with
  | nil => exact ⟨fun _ => ⟨(by decide : (-1 : ℚ) < 0), nofun⟩, nofun⟩
  | append_singleton gs x ih =>
    rw [List.foldl_append, List.foldl_cons, List.foldl_nil]
    generalize gs.foldl (closer team dist) (none, -1) = closest at ih ⊢
    cases x with
    | none => grind [closer]
    | some g => grind [closer]

/-- **A team that has a graveyard finds one of its own.** -/
theorem finds (hsmall : gs.length ≤ 255) : Finds gs := by
  intro team dist ⟨g, hg, hteam⟩
  obtain ⟨hnone, hsome⟩ := foldl_closer gs team dist
  unfold getClosestGraveYard
  rw [if_pos hsmall]
  cases hend : (gs.foldl (closer team dist) (none, -1)).1 with
  | none => exact absurd hteam ((hnone hend).2 g hg)
  | some g' =>
    obtain ⟨hg', hteam'⟩ := hsome g' hend
    exact ⟨g', hg', hteam', rfl⟩

/-- **The step lemma.** -/
theorem serve_spec (hsmall : gs.length ≤ 255) (hone : ∀ p, waiting p gs ≤ 1) (call : Call)
    (hcall : Regular (some gs) call) : ∃ gs', serve gs call = some gs' ∧ gs'.length = gs.length ∧
      control gs' = given gs call ∧
        ∀ p, waiting p gs' ≤ 1 ∧ (call.Ends p → waiting p gs' = 0) := by
  have hregular := hcall gs rfl
  cases call with
  | giveControlTo online id team =>
    unfold serve given
    dsimp only
    cases hget : getGraveyardById id gs with
    | none => exact ⟨gs, rfl, rfl, rfl, fun p => ⟨hone p, False.elim⟩⟩
    | some g =>
      have hteam : (g.giveControlTo team).controlTeam = team := by
        unfold BfGraveyard.giveControlTo
        split_ifs with hboth
        · rfl
        · exact ((hregular g hget).resolve_right hboth).symm
      have hqueue (p : ℕ) : (g.giveControlTo team).hasPlayer p = g.hasPlayer p := by
        unfold BfGraveyard.giveControlTo
        split_ifs <;> rfl
      dsimp only
      rw [if_neg (by omega)]
      refine ⟨_, rfl, List.length_set .., ?_, fun p => ⟨?_, False.elim⟩⟩
      · rw [Option.isSome_some, if_pos rfl, control, List.map_set, Option.map_some, hteam]
      · have hcount := waiting_set hget (g.giveControlTo team) p
        rw [hqueue] at hcount
        exact (Nat.add_right_cancel hcount).trans_le (hone p)
  | addPlayerToResurrectQueue creatures npcGuid guid =>
    rcases atFirst_spec (P := (·.hasNpc creatures npcGuid)) (f := (·.addPlayer guid)) hsmall with
      ⟨i, g, hfound, hget, -, heq⟩ | ⟨-, heq⟩
    · refine ⟨_, heq, List.length_set .., control_set hget rfl, fun p => ⟨?_, False.elim⟩⟩
      have hadd : (g.addPlayer guid).hasPlayer p = true ↔ p = guid ∨ g.hasPlayer p = true := by
        simp [BfGraveyard.hasPlayer, BfGraveyard.addPlayer]
      have hcount := waiting_set hget (g.addPlayer guid) p
      by_cases hnew : p = guid ∧ g.hasPlayer p = false
      · obtain ⟨rfl, hnew⟩ := hnew
        have hnone := hregular.resolve_right fun hasked =>
          Bool.false_ne_true (hnew.symm.trans (hasked i hfound g hget))
        rw [if_pos (hadd.mpr (.inl rfl)), hnew, hnone] at hcount
        exact hcount.le
      · have hsame : (g.addPlayer guid).hasPlayer p = g.hasPlayer p := by grind
        rw [hsame] at hcount
        exact (Nat.add_right_cancel hcount).trans_le (hone p)
    · exact ⟨gs, heq, rfl, rfl, fun p => ⟨hone p, False.elim⟩⟩
  | removePlayerFromResurrectQueue aura guid =>
    obtain ⟨gs', heq, hlength, hcontrol, hwaiting⟩ := remove_spec hsmall aura guid
    refine ⟨gs', heq, hlength, hcontrol, fun p =>
      ⟨((hwaiting p).trans (Nat.sub_le _ _)).trans (hone p), ?_⟩⟩
    rintro rfl
    have hnew := hwaiting guid
    rw [if_pos rfl, Nat.sub_eq_zero_of_le (hone guid)] at hnew
    exact Nat.le_zero.mp hnew
  | resurrect =>
    exact ⟨cleared gs, if_pos hsmall, List.length_map _, control_cleared, fun p =>
      ⟨(waiting_cleared p).trans_le (Nat.zero_le _), fun _ => waiting_cleared p⟩⟩

/-- **The graveyards are right along every regular run** that begins with nobody in the queues. -/
theorem graveyards_right (gs : GraveyardVect) (hsmall : gs.length ≤ 255) (calls : List Call)
    (h : Along step Regular (some (cleared gs)) calls) :
    Along step Right (some (cleared gs)) calls := by
  refine h.of_invariant
    (I := fun s => ∃ gs, s = some gs ∧ gs.length ≤ 255 ∧ ∀ p, waiting p gs ≤ 1)
    (fun _ call hs hcall => ?_) (fun _ call hs hcall => ?_) ?_
  · obtain ⟨gs, rfl, hlength, hone⟩ := hs
    obtain ⟨gs', heq, hlength', -, hkept⟩ := serve_spec hlength hone call hcall
    exact ⟨gs', heq, hlength'.trans_le hlength, fun p => (hkept p).1⟩
  · obtain ⟨gs, rfl, hlength, hone⟩ := hs
    obtain ⟨gs', heq, hlength', hcontrol, hkept⟩ := serve_spec hlength hone call hcall
    exact ⟨gs, gs', rfl, heq, hcontrol, finds (hlength'.trans_le hlength),
      fun p => ⟨hone p, hkept p⟩⟩
  · exact ⟨_, rfl, (List.length_map _).trans_le hsmall,
      fun p => (waiting_cleared p).trans_le (Nat.zero_le _)⟩

def two : GraveyardVect := [some ⟨.horde, 1, (1, 2), ∅⟩, some ⟨.horde, 2, (3, 4), ∅⟩]

theorem graveyards_right_two : Along step Right (some (cleared two))
    [.addPlayerToResurrectQueue {1, 2} 1 7, .giveControlTo {7} 0 .horde, .resurrect] := by
  refine graveyards_right two (by decide) _ ⟨?_, ?_, ?_, trivial⟩
  · rintro _ ⟨⟩
    exact .inl (by decide)
  · rintro _ ⟨⟩ _ ⟨⟩
    exact .inl rfl
  · rintro _ ⟨⟩
    trivial

/-- A player asks at the guides of both. -/
theorem resurrected_twice : ¬ ∀ (gs : GraveyardVect) (calls : List Call),
    Along step Right (some (cleared gs)) calls := by
  intro h
  obtain ⟨-, ⟨_, gs', hgs, heq, -, -, hone⟩, -⟩ := h two
    [.addPlayerToResurrectQueue {1, 2, 3, 4} 1 7, .addPlayerToResurrectQueue {1, 2, 3, 4} 3 7]
  cases hgs
  cases heq
  exact absurd (hone 7).2.1 (by decide)

end ZerosCore.Battlefields.Graveyards
