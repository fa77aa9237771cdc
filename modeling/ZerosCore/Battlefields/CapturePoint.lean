/-
# A capture point of a battlefield

`BfCapturePoint` of `src/server/game/Battlefield/Battlefield.cpp`: the value moves towards the
side that has more players about the point, and a state and a team go with it.  The numbers are
rational.

Value, state and team agree in any run if they do at first (`Inv.update`).  They do not if the
point starts without a team, for it then gets the value and the state of the horde, and not if
the neutral band is all there is (`capturePoint_right_iff`).
-/

import Mathlib.Tactic.Linarith
import Mathlib.Tactic.Positivity

namespace ZerosCore.Battlefields.CapturePoints

inductive TeamId where
  | alliance
  | horde
  | neutral
deriving DecidableEq

inductive ObjectiveState where
  | neutral
  | alliance
  | horde
  | neutralAllianceChallenge
  | neutralHordeChallenge
  | allianceHordeChallenge
  | hordeAllianceChallenge
deriving DecidableEq

def ObjectiveState.team : ObjectiveState → TeamId
  | .alliance => .alliance
  | .horde => .horde
  | _ => .neutral

/-- A capture point, with the arguments `ChangeTeam` was called with. -/
structure CapturePoint where
  maxValue : ℚ
  minValue : ℚ
  maxSpeed : ℚ
  value : ℚ
  team : TeamId
  state : ObjectiveState
  oldState : ObjectiveState := .neutral
  changes : List TeamId := []

/-- What `SetCapturePointData` takes from the game object. -/
structure GameObjectInfo where
  maxTime : ℕ
  minTime : ℕ
  neutralPercent : ℕ

/-- `SetCapturePointData` for a point that was given a team. -/
def setCapturePointData (team : TeamId) (goinfo : GameObjectInfo) : CapturePoint where
  maxValue := goinfo.maxTime
  maxSpeed := (goinfo.maxTime : ℚ) / (if goinfo.minTime ≠ 0 then goinfo.minTime else 60 : ℕ)
  minValue := (goinfo.maxTime : ℚ) * goinfo.neutralPercent / 100
  value := if team = .alliance then goinfo.maxTime else -goinfo.maxTime
  state := if team = .alliance then .alliance else .horde
  team := team

/-- `G3D::fuzzyEq`. -/
def fuzzyEq (a b : ℚ) : Bool := a = b || |a - b| ≤ 1 / 100000 * (|a| + 1)

namespace CapturePoint

def greyState (s : CapturePoint) (challenger : TeamId) (value : ℚ) : ObjectiveState :=
  if s.value * value ≤ 0 then
    if challenger = .alliance then .neutralAllianceChallenge
    else if challenger = .horde then .neutralHordeChallenge
    else s.state
  else if challenger = .alliance ∧ (s.state = .horde ∨ s.state = .neutralHordeChallenge) then
    .hordeAllianceChallenge
  else if challenger = .horde ∧ (s.state = .alliance ∨ s.state = .neutralAllianceChallenge) then
    .allianceHordeChallenge
  else s.state

/-- The branches of `Update` on the new value. -/
def setValue (s : CapturePoint) (challenger : TeamId) (value : ℚ) : CapturePoint :=
  if value < -s.minValue then
    { s with
      value := if value < -s.maxValue then -s.maxValue else value
      state := .horde
      team := .horde }
  else if s.minValue < value then
    { s with
      value := if s.maxValue < value then s.maxValue else value
      state := .alliance
      team := .alliance }
  else { s with value := value, state := s.greyState challenger value, team := .neutral }

/-- The rest of `Update`: a new state is told of, if the team is new. -/
def change (s : CapturePoint) (challenger : TeamId) (factDiff : ℚ) : CapturePoint :=
  let t := s.setValue challenger (s.value + factDiff)
  { t with
    oldState := s.state
    changes := if s.state ≠ t.state ∧ s.team ≠ t.team then s.changes ++ [s.team] else s.changes }

end CapturePoint

/-- The time that has passed, and the players about the point. -/
structure Event where
  diff : ℕ
  alliance : ℕ
  horde : ℕ

def Event.factDiff (e : Event) : ℚ := ((e.alliance : ℚ) - e.horde) * e.diff / 1000

namespace CapturePoint

def update (s : CapturePoint) (e : Event) : CapturePoint :=
  let maxDiff := s.maxSpeed * e.diff
  if fuzzyEq e.factDiff 0 then s
  else if e.factDiff < 0 then
    if s.state = .horde ∧ s.value ≤ -s.maxValue then s
    else s.change .horde (if e.factDiff < -maxDiff then -maxDiff else e.factDiff)
  else if s.state = .alliance ∧ s.maxValue ≤ s.value then s
  else s.change .alliance (if maxDiff < e.factDiff then maxDiff else e.factDiff)

/-- **Value, team and state agree.** -/
structure Right (s : CapturePoint) : Prop where
  lower : -s.maxValue ≤ s.value
  upper : s.value ≤ s.maxValue
  alliance : s.team = .alliance ↔ s.minValue < s.value
  horde : s.team = .horde ↔ s.value < -s.minValue
  named : s.state ≠ .neutral ∧ s.state.team = s.team

/-- **A step moves the value towards the majority**, and `ChangeTeam` is called if the team is
new. -/
structure Moves (s : CapturePoint) (e : Event) (t : CapturePoint) : Prop where
  up : e.horde ≤ e.alliance → s.value ≤ t.value
  down : e.alliance ≤ e.horde → t.value ≤ s.value
  told : t.changes = if t.team = s.team then s.changes else s.changes ++ [s.team]

/-- Also the numbers are such as `SetCapturePointData` makes them. -/
structure Inv (s : CapturePoint) : Prop extends s.Right where
  band : 0 ≤ s.minValue
  fits : s.minValue < s.maxValue
  speed : 0 ≤ s.maxSpeed

variable {s : CapturePoint} {challenger : TeamId} {d : ℚ}

/-- The one that moves the value. -/
def Pushes (challenger : TeamId) (d : ℚ) : Prop :=
  challenger = .alliance ∧ 0 ≤ d ∨ challenger = .horde ∧ d ≤ 0

/-- **In the band the state is a challenge**: who moves the value there was not the owner. -/
theorem Right.greyState (h : s.Right) (hpush : Pushes challenger d)
    (hlower : -s.minValue ≤ s.value + d) (hupper : s.value + d ≤ s.minValue) :
    s.greyState challenger (s.value + d) ≠ .neutral ∧
      (s.greyState challenger (s.value + d)).team = .neutral := by
  obtain ⟨hne, hteam⟩ := h.named
  have halliance : s.state = .alliance → challenger = .horde := fun hs => by
    have hlt := h.alliance.mp (by rw [← hteam, hs]; rfl)
    rcases hpush with ⟨-, hd⟩ | ⟨hc, -⟩
    · linarith
    · exact hc
  have hhorde : s.state = .horde → challenger = .alliance := fun hs => by
    have hlt := h.horde.mp (by rw [← hteam, hs]; rfl)
    rcases hpush with ⟨hc, -⟩ | ⟨-, hd⟩
    · exact hc
    · linarith
  unfold CapturePoint.greyState
  rcases hpush with ⟨rfl, -⟩ | ⟨rfl, -⟩ <;> cases hs : s.state <;> simp_all [ObjectiveState.team] <;>
    split_ifs <;> simp

/-- The value stays within its bounds, and goes where it is moved. -/
theorem Inv.setValue (h : s.Inv) (hpush : Pushes challenger d) :
    (s.setValue challenger (s.value + d)).Inv ∧
      (0 ≤ d → s.value ≤ (s.setValue challenger (s.value + d)).value) ∧
      (d ≤ 0 → (s.setValue challenger (s.value + d)).value ≤ s.value) := by
  have hright := h.toRight
  obtain ⟨⟨hlower, hupper, -, -, -⟩, hband, hfits, hspeed⟩ := h
  have hhorde (x : ℚ) (hle : -s.maxValue ≤ x) (hlt : x < -s.minValue)
      (hmoved : (0 ≤ d → s.value ≤ x) ∧ (d ≤ 0 → x ≤ s.value)) :
      Inv { s with value := x, state := .horde, team := .horde } ∧
        (0 ≤ d → s.value ≤ x) ∧ (d ≤ 0 → x ≤ s.value) := by
    have hupper : x ≤ s.maxValue := by linarith
    have hnot : ¬s.minValue < x := by linarith
    exact ⟨⟨⟨hle, hupper, ⟨nofun, fun h => absurd h hnot⟩, ⟨fun _ => hlt, fun _ => rfl⟩, nofun, rfl⟩,
      hband, hfits, hspeed⟩, hmoved⟩
  have halliance (x : ℚ) (hlt : s.minValue < x) (hle : x ≤ s.maxValue)
      (hmoved : (0 ≤ d → s.value ≤ x) ∧ (d ≤ 0 → x ≤ s.value)) :
      Inv { s with value := x, state := .alliance, team := .alliance } ∧
        (0 ≤ d → s.value ≤ x) ∧ (d ≤ 0 → x ≤ s.value) := by
    have hlower : -s.maxValue ≤ x := by linarith
    have hnot : ¬x < -s.minValue := by linarith
    exact ⟨⟨⟨hlower, hle, ⟨fun _ => hlt, fun _ => rfl⟩, ⟨nofun, fun h => absurd h hnot⟩, nofun, rfl⟩,
      hband, hfits, hspeed⟩, hmoved⟩
  unfold CapturePoint.setValue
  split_ifs with hred hclip hblue hclip
  · exact hhorde _ le_rfl (by linarith) ⟨fun _ => by linarith, fun _ => hlower⟩
  · exact hhorde _ (by linarith) hred ⟨fun _ => by linarith, fun _ => by linarith⟩
  · exact halliance _ hfits le_rfl ⟨fun _ => hupper, fun _ => by linarith⟩
  · exact halliance _ hblue (by linarith) ⟨fun _ => by linarith, fun _ => by linarith⟩
  · have hnamed := hright.greyState hpush (not_lt.mp hred) (not_lt.mp hblue)
    have hlower : -s.maxValue ≤ s.value + d := by linarith
    have hupper : s.value + d ≤ s.maxValue := by linarith
    exact ⟨⟨⟨hlower, hupper, ⟨nofun, fun h => absurd h hblue⟩, ⟨nofun, fun h => absurd h hred⟩,
      hnamed⟩, hband, hfits, hspeed⟩, fun hd => le_add_of_nonneg_right hd,
      fun hd => add_le_of_nonpos_right hd⟩

/-- **The step lemma.** -/
theorem Inv.update (h : s.Inv) (e : Event) : (s.update e).Inv ∧ Moves s e (s.update e) := by
  have hsame : s.Inv ∧ Moves s e s :=
    ⟨h, fun _ => le_rfl, fun _ => le_rfl, by rw [if_pos rfl]⟩
  have hmaxDiff : 0 ≤ s.maxSpeed * e.diff := mul_nonneg h.speed (Nat.cast_nonneg _)
  -- who has more players about the point is the one to move the value
  have hchange (challenger : TeamId) (d : ℚ) (hpush : Pushes challenger d)
      (hup : e.horde ≤ e.alliance → 0 ≤ d) (hdown : e.alliance ≤ e.horde → d ≤ 0) :
      (s.change challenger d).Inv ∧ Moves s e (s.change challenger d) := by
    obtain ⟨hinv, hge, hle⟩ := h.setValue hpush
    refine ⟨⟨{ hinv with }, hinv.band, hinv.fits,
      hinv.speed⟩, fun hplayers => hge (hup hplayers), fun hplayers => hle (hdown hplayers), ?_⟩
    have hteam : s.state = (s.setValue challenger (s.value + d)).state →
        s.team = (s.setValue challenger (s.value + d)).team := fun hstate => by
      rw [← h.named.2, ← hinv.named.2, hstate]
    unfold CapturePoint.change
    dsimp only
    split_ifs with hnew heq heq
    · exact absurd heq.symm hnew.2
    · rfl
    · rfl
    · exact absurd ⟨fun hstate => heq (hteam hstate).symm, Ne.symm heq⟩ hnew
  have hdown (hle : e.alliance ≤ e.horde) : e.factDiff ≤ 0 :=
    div_nonpos_of_nonpos_of_nonneg (mul_nonpos_of_nonpos_of_nonneg
      (sub_nonpos.mpr (Nat.cast_le.mpr hle)) (Nat.cast_nonneg _)) (by norm_num)
  have hup (hle : e.horde ≤ e.alliance) : 0 ≤ e.factDiff :=
    div_nonneg (mul_nonneg (sub_nonneg.mpr (Nat.cast_le.mpr hle)) (Nat.cast_nonneg _)) (by norm_num)
  unfold CapturePoint.update
  dsimp only
  split_ifs with hzero hneg hheld hfast hheld hfast
  · exact hsame
  · exact hsame
  · exact hchange .horde _ (.inr ⟨rfl, by linarith⟩) (fun hle => by linarith [hup hle])
      fun _ => by linarith
  · exact hchange .horde _ (.inr ⟨rfl, hneg.le⟩) hup hdown
  · exact hsame
  · exact hchange .alliance _ (.inl ⟨rfl, hmaxDiff⟩) (fun _ => hmaxDiff)
      fun hle => by linarith [hdown hle]
  · exact hchange .alliance _ (.inl ⟨rfl, not_lt.mp hneg⟩) hup hdown

end CapturePoint

open CapturePoint

theorem inv_setCapturePointData {team : TeamId} {goinfo : GameObjectInfo} (hteam : team ≠ .neutral)
    (hfits : (goinfo.maxTime : ℚ) * goinfo.neutralPercent / 100 < goinfo.maxTime) :
    (setCapturePointData team goinfo).Inv := by
  have hmin : (0 : ℚ) ≤ (goinfo.maxTime : ℚ) * goinfo.neutralPercent / 100 := by positivity
  have hspeed : (0 : ℚ) ≤ (setCapturePointData team goinfo).maxSpeed :=
    div_nonneg (Nat.cast_nonneg _) (Nat.cast_nonneg _)
  have hmax : -(goinfo.maxTime : ℚ) ≤ goinfo.maxTime := by linarith
  cases team with
  | neutral => exact absurd rfl hteam
  | alliance =>
    have hnot : ¬(goinfo.maxTime : ℚ) < -(goinfo.maxTime * goinfo.neutralPercent / 100) := by linarith
    exact ⟨⟨hmax, le_rfl, ⟨fun _ => hfits, fun _ => rfl⟩, ⟨nofun, fun h => absurd h hnot⟩, nofun, rfl⟩,
      hmin, hfits, hspeed⟩
  | horde =>
    have hnot : ¬(goinfo.maxTime * goinfo.neutralPercent / 100 : ℚ) < -goinfo.maxTime := by linarith
    exact ⟨⟨le_rfl, hmax, ⟨nofun, fun h => absurd h hnot⟩, ⟨fun _ => neg_lt_neg hfits, fun _ => rfl⟩,
      nofun, rfl⟩, hmin, hfits, hspeed⟩

/-- **A capture point is right in every run exactly if** it starts with a team and its bar has more
than the neutral band. -/
theorem capturePoint_right_iff (team : TeamId) (goinfo : GameObjectInfo) :
    (∀ events : List Event, (events.foldl update (setCapturePointData team goinfo)).Right ∧
      ∀ e, Moves (events.foldl update (setCapturePointData team goinfo)) e
        ((events ++ [e]).foldl update (setCapturePointData team goinfo))) ↔
      team ≠ .neutral ∧ 0 < goinfo.maxTime ∧ goinfo.neutralPercent < 100 := by
  have hfits : (goinfo.maxTime : ℚ) * goinfo.neutralPercent / 100 < goinfo.maxTime ↔
      0 < goinfo.maxTime ∧ goinfo.neutralPercent < 100 := by
    rw [div_lt_iff₀ (by norm_num)]
    norm_cast
    rcases Nat.eq_zero_or_pos goinfo.maxTime with hzero | hpos
    · simp [hzero]
    · simp [hpos]
  rw [← hfits]
  constructor
  · intro h
    obtain ⟨-, -, halliance, hhorde, -, hnamed⟩ := (h []).1
    cases team with
    | neutral => cases hnamed
    | alliance => exact ⟨nofun, halliance.mp rfl⟩
    | horde => exact ⟨nofun, neg_lt_neg_iff.mp (hhorde.mp rfl)⟩
  · rintro ⟨hteam, hlt⟩ events
    have hinv : (events.foldl update (setCapturePointData team goinfo)).Inv := by
      induction events using List.reverseRecOn with
      | nil => exact inv_setCapturePointData hteam hlt
      | append_singleton events e ih =>
        rw [List.foldl_append]
        exact (ih.update e).1
    refine ⟨hinv.toRight, fun e => ?_⟩
    rw [List.foldl_append]
    exact (hinv.update e).2

/-- **A point of no team has the state of the horde.** -/
theorem neutral_point_named_horde : ¬∀ events : List Event,
    (events.foldl update (setCapturePointData .neutral ⟨20, 10, 50⟩)).Right := by
  intro h
  cases (h []).named.2

end ZerosCore.Battlefields.CapturePoints
