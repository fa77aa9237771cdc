/-
# What is made of the nodes of Arathi Basin

What `BattlegroundAB.cpp` makes of its nodes goes wrong in four places.

* `_NodeOccupied` looks at the same node in each turn of its loop, so that it counts the
  nodes without a capture timer, whoever occupies them, and casts the spell for four or
  five bases on a team that has fewer.
* `StartingEventCloseDoors` calls it for the two starting bases, and it then reads
  `m_Nodes` behind its end.
* `PostUpdateImpl` compares the index of a team with the id of one, and the reputation
  for the ticks of the alliance goes to the horde.
* The two win conditions are tested one after the other: if both teams reach the maximum
  in one update, the match ends twice.

`Quiet` is the condition that a request meets none of them, in terms of the state before
it, and `Inv.step_iff` says that it decides whether a step is right.
-/

import ZerosCore.Battlegrounds.ArathiNodes

namespace ZerosCore.Battlegrounds.ArathiBasin

open Lib List State Point Notice

/-! ### What is made of them -/

/-- A notice is as it should be. -/
def Notice.Right : Notice → Prop
  | .nodesIndex i => i < dynamicNodesCount
  | .castSpell bases _ held => bases ≤ held
  | .reputation scorer rewarded => rewarded = scorer
  | .honor scorer rewarded => rewarded = scorer
  | .ended _ score => maxTeamScore ≤ score

instance : (e : Notice) → Decidable e.Right
  | .nodesIndex _ => inferInstanceAs (Decidable (_ < _))
  | .castSpell _ _ _ | .ended _ _ => inferInstanceAs (Decidable (_ ≤ _))
  | .reputation _ _ | .honor _ _ => inferInstanceAs (Decidable (_ = _))

def Notice.isEnded : Notice → Bool
  | .ended _ _ => true
  | _ => false

/-- All that was made known is right, and the match has ended at most once. -/
def NoticesRight (s : State) : Prop :=
  (∀ e ∈ s.notices, e.Right) ∧ s.notices.countP Notice.isEnded ≤ 1

instance (s : State) : Decidable (NoticesRight s) := inferInstanceAs (Decidable (_ ∧ _))

/-! ### When it is right -/

/-- The nodes without a capture timer when an update has served the nodes before `n`. -/
def freeAt (s : State) (diff n : ℕ) : ℕ :=
  (List.range dynamicNodesCount).countP fun i =>
    decide ((s.points i).nodeTimer = 0 ∨ i < n ∧ (s.points i).Ends diff)

/-- The nodes a team occupies when an update has served the nodes before `n`. -/
def heldAt (s : State) (diff n : ℕ) (team : Team) : ℕ :=
  (List.range dynamicNodesCount).countP fun i =>
    decide ((s.points i).node = team.index + typeOccupied ∨
      i < n ∧ (s.points i).Ends diff ∧ (s.points i).node = team.index + typeContested)

/-- The points a team gets in an update. -/
def scored (s : State) (diff : ℕ) (team : Team) : ℕ :=
  let points := heldAt s diff dynamicNodesCount team
  if points ≠ 0 ∧ tickIntervals points < (s.lastTick team + diff) % 2 ^ 32 then tickPoints points
  else 0

/-- With so many nodes free, a team that holds `held` of them gets only the spells it has
deserved. -/
def Deserved (free held : ℕ) : Prop := (4 ≤ free → 4 ≤ held) ∧ (5 ≤ free → 5 ≤ held)

instance (free held : ℕ) : Decidable (Deserved free held) :=
  inferInstanceAs (Decidable (_ ∧ _))

/-- A click that defends a node: the nodes that are free then, and those of the team. -/
def DefenceDeserved (s : State) (team : Team) (n : ℕ) : Prop :=
  Deserved
    ((List.range dynamicNodesCount).countP fun i =>
      decide (i = n ∨ (s.points i).nodeTimer = 0))
    ((List.range dynamicNodesCount).countP fun i =>
      decide (i = n ∨ (s.points i).node = team.index + typeOccupied))

instance (s : State) (team : Team) (n : ℕ) : Decidable (DefenceDeserved s team n) :=
  inferInstanceAs (Decidable (Deserved _ _))

/-- A request that meets none of the four defects. -/
def Quiet (s : State) : Request → Prop
  | .closeDoors => s.status ≠ .waitJoin
  | .openDoors => True
  | .click team near =>
    s.status = .inProgress → nearNode near < dynamicNodesCount →
    (s.points (nearNode near)).node = team.other.index + typeContested →
    typeOccupied ≤ (s.points (nearNode near)).prevNode →
    DefenceDeserved s team (nearNode near)
  | .postUpdate diff =>
    s.status = .inProgress →
    (∀ n < dynamicNodesCount, (s.points n).Ends diff → Deserved (freeAt s diff (n + 1))
        (heldAt s diff (n + 1) (contester (s.points n).node))) ∧
    (scored s diff .alliance ≠ 0 →
      s.reputationScoreTics .alliance + scored s diff .alliance < s.reputationTics) ∧
    ¬(maxTeamScore ≤ s.teamScores .alliance + scored s diff .alliance ∧
      maxTeamScore ≤ s.teamScores .horde + scored s diff .horde)

variable {s t : State} {n k diff : ℕ} {team : Team}

theorem Beside.lastTick (h : Beside s t) : t.lastTick = s.lastTick := h.congr State.lastTick

theorem Beside.teamScores (h : Beside s t) : t.teamScores = s.teamScores :=
  h.congr State.teamScores

theorem Beside.reputationScoreTics (h : Beside s t) :
    t.reputationScoreTics = s.reputationScoreTics := h.congr State.reputationScoreTics

theorem Beside.reputationTics (h : Beside s t) : t.reputationTics = s.reputationTics :=
  h.congr State.reputationTics

/-! ### The spells of an update -/

/-- The nodes without a capture timer. -/
def freeNodes (s : State) : ℕ :=
  (List.range dynamicNodesCount).countP fun i => decide ((s.points i).nodeTimer = 0)

theorem freeNodes_served (s : State) (diff k : ℕ) :
    freeNodes (served s diff k) = freeAt s diff k := by
  refine countP_congr fun i _ => ?_
  rw [decide_eq_true_iff, decide_eq_true_iff, points_served]
  by_cases hi : i < k
  · rw [if_pos hi]
    rw [nodeTimer_captured]
    by_cases hends : (s.points i).Ends diff
    · simp [hends, hi]
    rw [if_neg hends]
    simp only [hends, and_false, or_false]
    unfold Point.Ends at hends
    omega
  · simp [hi]

theorem Inv.node_captured (h : Inv s) (hn : n < dynamicNodesCount) (team : Team) :
    (((s.points n).shown diff).captured diff).node = team.index + typeOccupied ↔
      (s.points n).node = team.index + typeOccupied ∨
        (s.points n).Ends diff ∧ (s.points n).node = team.index + typeContested := by
  have hcontested := (h.point n hn).timer
  have hindex : team.index ≤ 1 := by cases team <;> decide
  unfold Contested at hcontested
  rw [Point.node_captured]
  unfold typeOccupied typeContested
  by_cases hends : (s.points n).Ends diff
  · rw [if_pos hends]
    simp only [hends, true_and]
    unfold Point.Ends at hends
    omega
  · simp [hends]

theorem Inv.teamPoints_served (h : Inv s) (diff k : ℕ) (team : Team) :
    (served s diff k).teamPoints team = heldAt s diff k team := by
  refine countP_congr fun i hi => ?_
  rw [decide_eq_true_iff, decide_eq_true_iff, points_served]
  by_cases hk : i < k
  · rw [if_pos hk, h.node_captured (mem_range.mp hi)]
    simp [hk]
  · simp [hk]

theorem capturedNodes_eq (h : s.nodeAt n = team.index + typeOccupied) :
    s.capturedNodes n team = freeNodes s := by
  unfold capturedNodes freeNodes
  simp [h]

/-- What an update makes known when it serves a node. -/
def nodeNews (s : State) (diff n : ℕ) : List Notice :=
  .nodesIndex n ::
    if (s.points n).Ends diff then
      .nodesIndex n :: spells (freeAt s diff (n + 1))
        (heldAt s diff (n + 1) (contester (s.points n).node)) (contester (s.points n).node)
    else []

theorem index_contester (h : Contested n) : (contester n).index + 1 = n := by
  obtain rfl | rfl := h <;> rfl

/-- **What serving a node makes known**: when its capture time ends, the spells for the
nodes that are free by then. -/
theorem Inv.notices_served (h : Inv s) (diff : ℕ) (hk : k ≤ dynamicNodesCount) :
    (served s diff k).notices = s.notices ++ (List.range k).flatMap (nodeNews s diff) := by
  induction k with
  | zero => simp [served]
  | succ k ih =>
    have hk' : k < dynamicNodesCount := hk
    rw [range_succ, flatMap_append, ← append_assoc, ← ih hk'.le, flatMap_singleton]
    have hpoint : (served s diff k).points k = s.points k := by
      rw [points_served, if_neg (lt_irrefl k)]
    set t := State.bannerUpdate diff ((served s diff k).note (.nodesIndex k)) k with ht
    have htk : t.points k = (s.points k).shown diff := by
      rw [ht, points_bannerUpdate, if_pos rfl]
      exact congrArg (shown · diff) hpoint
    have hstep : served s diff (k + 1) = State.captureUpdate diff t k := served_succ s diff k
    have hnotices : t.notices = (served s diff k).notices ++ [.nodesIndex k] :=
      notices_bannerUpdate ..
    unfold nodeNews
    by_cases hends : (s.points k).Ends diff
    · have htends : (t.points k).Ends diff := by rw [htk]; exact hends
      have hcap : (t.capture k).points = (served s diff (k + 1)).points := by
        rw [hstep, captureUpdate_of_ends htends, points_nodeOccupied]
      have hnode : (t.points k).node = (s.points k).node := by rw [htk]; rfl
      have hfree : freeNodes (t.capture k) = freeAt s diff (k + 1) := by
        rw [← freeNodes_served]
        unfold freeNodes
        rw [hcap]
      have hheld (team : Team) : (t.capture k).teamPoints team = heldAt s diff (k + 1) team := by
        rw [← h.teamPoints_served]
        unfold State.teamPoints
        rw [hcap]
      have hat : (t.capture k).nodeAt k = (contester (s.points k).node).index + typeOccupied := by
        have hindex := index_contester (((h.point k hk').timer).mp hends.1)
        unfold nodeAt capture
        rw [if_pos hk', points_turnNode, if_pos rfl]
        unfold turned typeOccupied
        dsimp only
        omega
      rw [hstep, captureUpdate_of_ends htends, nodeOccupied_eq, hnode, capturedNodes_eq hat,
        hfree, hheld, if_pos hends]
      unfold State.capture
      simp [hnotices]
    have htends : ¬(t.points k).Ends diff := by rw [htk]; exact hends
    rw [hstep, captureUpdate_of_not_ends htends, if_neg hends]
    exact hnotices

/-! ### The points of a tick -/

/-- The points a team gets with the nodes as they are. -/
def gained (s : State) (diff : ℕ) (team : Team) : ℕ :=
  if s.teamPoints team ≠ 0 ∧
      tickIntervals (s.teamPoints team) < (s.lastTick team + diff) % 2 ^ 32 then
    tickPoints (s.teamPoints team)
  else 0

theorem gained_of_tick (hzero : s.teamPoints team ≠ 0)
    (htick : tickIntervals (s.teamPoints team) < (s.lastTick team + diff) % 2 ^ 32) :
    gained s diff team = tickPoints (s.teamPoints team) := if_pos ⟨hzero, htick⟩

theorem gained_of_not_tick
    (htick : ¬tickIntervals (s.teamPoints team) < (s.lastTick team + diff) % 2 ^ 32) :
    gained s diff team = 0 := if_neg fun hand => htick hand.2

theorem gained_of_zero (hzero : s.teamPoints team = 0) : gained s diff team = 0 :=
  if_neg fun hand => hand.1 hzero

theorem tickPoints_pos (h : n ≠ 0) (hn : n ≤ dynamicNodesCount) : tickPoints n ≠ 0 := by
  unfold dynamicNodesCount at hn
  obtain rfl | rfl | rfl | rfl | rfl : n = 1 ∨ n = 2 ∨ n = 3 ∨ n = 4 ∨ n = 5 := by omega
  all_goals decide

theorem teamPoints_le (s : State) (team : Team) : s.teamPoints team ≤ dynamicNodesCount := by
  have h := countP_le_length (l := List.range dynamicNodesCount)
    (p := fun i => decide ((s.points i).node = team.index + typeOccupied))
  rwa [length_range] at h

def rewards (s : State) (team : Team) (points : ℕ) : List Notice :=
  (if s.reputationTics ≤ s.reputationScoreTics team + tickPoints points then
    [Notice.reputation team .horde] else []) ++
  if s.honorTics ≤ s.honorScoreTics team + tickPoints points then
    [Notice.honor team team] else []

theorem notices_teamUpdate (diff : ℕ) (s : State) (team : Team) :
    (teamUpdate diff s team).notices = s.notices ++
      if gained s diff team ≠ 0 then rewards s team (s.teamPoints team) else [] := by
  unfold teamUpdate
  dsimp only
  by_cases hzero : s.teamPoints team = 0
  · rw [gained_of_zero hzero]
    simp [hzero]
  by_cases htick : tickIntervals (s.teamPoints team) < (s.lastTick team + diff) % 2 ^ 32
  · have hne := tickPoints_pos hzero (teamPoints_le s team)
    rw [gained_of_tick hzero htick, if_neg hzero, if_pos htick, if_pos hne]
    cases team <;> rfl
  rw [gained_of_not_tick htick, if_neg hzero, if_neg htick]
  simp

theorem maxTeamScore_le_teamUpdate (diff : ℕ) (s : State) (team : Team) :
    maxTeamScore ≤ (teamUpdate diff s team).teamScores team ↔
      maxTeamScore ≤ s.teamScores team + gained s diff team := by
  unfold teamUpdate scoreTick
  dsimp only
  by_cases hzero : s.teamPoints team = 0
  · rw [gained_of_zero hzero]
    simp [hzero]
  by_cases htick : tickIntervals (s.teamPoints team) < (s.lastTick team + diff) % 2 ^ 32
  · rw [gained_of_tick hzero htick, if_neg hzero, if_pos htick]
    dsimp only
    rw [if_pos rfl, Nat.le_min]
    exact and_iff_left le_rfl
  rw [gained_of_not_tick htick, if_neg hzero, if_neg htick]
  simp

/-- **The rewards of a tick go to the team that scored**, except the reputation of the
alliance. -/
theorem right_rewards (s : State) (team : Team) (n : ℕ) : (∀ e ∈ rewards s team n, e.Right) ↔
    (team = .alliance → s.reputationScoreTics team + tickPoints n < s.reputationTics) := by
  unfold rewards
  by_cases hreputation : s.reputationTics ≤ s.reputationScoreTics team + tickPoints n
  · by_cases hhonor : s.honorTics ≤ s.honorScoreTics team + tickPoints n
    · cases team <;> simp [Notice.Right, hreputation, hhonor]
    · cases team <;> simp [Notice.Right, hreputation, hhonor]
  have hlt := not_le.mp hreputation
  by_cases hhonor : s.honorTics ≤ s.honorScoreTics team + tickPoints n
  · simp [Notice.Right, hreputation, hhonor, hlt]
  · simp [hreputation, hhonor, hlt]

theorem countP_rewards (s : State) (team : Team) (n : ℕ) :
    (rewards s team n).countP isEnded = 0 := by
  unfold rewards
  split <;> split <;> rfl

theorem countP_spells (n k : ℕ) (team : Team) : (spells n k team).countP isEnded = 0 := by
  unfold spells
  split <;> split <;> rfl

/-- **The spells are deserved.** -/
theorem right_spells (n k : ℕ) (team : Team) : (∀ e ∈ spells n k team, e.Right) ↔ Deserved n k := by
  unfold spells Deserved
  by_cases h4 : 4 ≤ n
  · by_cases h5 : 5 ≤ n
    · simp [Notice.Right, h4, h5, and_comm]
    · simp [Notice.Right, h4, h5]
  have h5 : ¬5 ≤ n := by omega
  simp [h4, h5]

theorem countP_nodeNews (s : State) (diff n : ℕ) : (nodeNews s diff n).countP isEnded = 0 := by
  unfold nodeNews
  split
  · rw [countP_cons, countP_cons, countP_spells]
    rfl
  · rfl

theorem right_nodeNews (hn : n < dynamicNodesCount) : (∀ e ∈ nodeNews s diff n, e.Right) ↔
    ((s.points n).Ends diff → Deserved (freeAt s diff (n + 1))
      (heldAt s diff (n + 1) (contester (s.points n).node))) := by
  unfold nodeNews
  rw [forall_mem_cons]
  by_cases hends : (s.points n).Ends diff
  · rw [if_pos hends, forall_mem_cons, right_spells]
    exact ⟨fun h _ => h.2.2, fun h => ⟨hn, hn, h hends⟩⟩
  rw [if_neg hends]
  exact ⟨fun _ h => absurd h hends, fun _ => ⟨hn, by simp⟩⟩

/-! ### An update -/

/-- What the win conditions make known. -/
def endNews (s : State) : List Notice :=
  (if maxTeamScore ≤ s.teamScores .alliance then
    [Notice.ended .alliance (s.teamScores .alliance)] else []) ++
  if maxTeamScore ≤ s.teamScores .horde then
    [Notice.ended .horde (s.teamScores .horde)] else []

theorem right_endNews (s : State) : ∀ e ∈ endNews s, e.Right := by
  unfold endNews
  split <;> split <;> simp_all [Notice.Right]

/-- **The match ends once** unless both teams have reached the maximum. -/
theorem countP_endNews (s : State) : (endNews s).countP isEnded ≤ 1 ↔
    ¬(maxTeamScore ≤ s.teamScores .alliance ∧ maxTeamScore ≤ s.teamScores .horde) := by
  unfold endNews
  split <;> split <;> simp_all [isEnded, countP_cons]

theorem notices_testWin (s : State) :
    ((s.testWin .alliance).testWin .horde).notices = s.notices ++ endNews s := by
  unfold testWin endBattleground endNews
  by_cases halliance : maxTeamScore ≤ s.teamScores .alliance
  all_goals
    by_cases hhorde : maxTeamScore ≤ s.teamScores .horde
    · simp [halliance, hhorde]
    · simp [halliance, hhorde]

theorem gained_served (h : Inv s) (diff : ℕ) (team : Team) :
    gained (served s diff dynamicNodesCount) diff team = scored s diff team := by
  unfold gained scored
  rw [h.teamPoints_served, (beside_served s diff dynamicNodesCount).lastTick]

theorem gained_horde (diff : ℕ) (s : State) :
    gained (teamUpdate diff s .alliance) diff .horde = gained s diff .horde := by
  obtain ⟨hpoints, -, -, -, htick⟩ := counted_teamUpdate diff s .alliance
  have hteam : (teamUpdate diff s .alliance).teamPoints .horde = s.teamPoints .horde := by
    unfold teamPoints
    rw [hpoints]
  unfold gained
  rw [hteam, htick .horde (by simp)]

theorem Inv.maxTeamScore_le_counted (h : Inv s) (diff : ℕ) (team : Team) :
    maxTeamScore ≤ (counted s diff).teamScores team ↔
      maxTeamScore ≤ s.teamScores team + scored s diff team := by
  have hserved := gained_served h diff
  have hscores := (beside_served s diff dynamicNodesCount).teamScores
  unfold counted
  set t := served s diff dynamicNodesCount
  have hhorde := counted_teamUpdate diff (teamUpdate diff t .alliance) .horde
  have halliance := counted_teamUpdate diff t .alliance
  cases team with
  | alliance =>
    rw [hhorde.teamScores .alliance (by simp), maxTeamScore_le_teamUpdate, hserved, hscores]
  | horde =>
    rw [maxTeamScore_le_teamUpdate, gained_horde, hserved,
      halliance.teamScores .horde (by simp), hscores]

/-- **All that an update makes known.** -/
theorem Inv.notices_postUpdateImpl (h : Inv s) (hs : s.status = .inProgress) (diff : ℕ) :
    (s.postUpdateImpl diff).notices =
      s.notices ++ (List.range dynamicNodesCount).flatMap (nodeNews s diff) ++
        (if scored s diff .alliance ≠ 0 then rewards (served s diff dynamicNodesCount) .alliance
            ((served s diff dynamicNodesCount).teamPoints .alliance) else []) ++
        (if scored s diff .horde ≠ 0 then
          rewards (teamUpdate diff (served s diff dynamicNodesCount) .alliance) .horde
            ((teamUpdate diff (served s diff dynamicNodesCount) .alliance).teamPoints
              .horde) else []) ++ endNews (counted s diff) := by
  rw [postUpdateImpl_eq hs, notices_testWin]
  unfold counted
  rw [notices_teamUpdate, notices_teamUpdate, gained_horde, gained_served h, gained_served h,
    h.notices_served diff le_rfl]

/-- What has been made known so far is right, and the match has not ended before it is
over. -/
structure Told (s : State) : Prop where
  right : NoticesRight s
  notEnded : s.status ≠ .waitLeave → s.notices.countP Notice.isEnded = 0

variable {l : List Notice}

theorem forall_mem_ite {p : Prop} [Decidable p] {P : Notice → Prop} :
    (∀ e ∈ (if p then l else []), P e) ↔ (p → ∀ e ∈ l, P e) := by
  by_cases hp : p <;> simp [hp]

theorem Inv.countP_postUpdateImpl (h : Inv s) (hs : s.status = .inProgress)
    (hcount : s.notices.countP isEnded = 0) (diff : ℕ) :
    (s.postUpdateImpl diff).notices.countP isEnded = (endNews (counted s diff)).countP isEnded := by
  have hnodes : ((List.range dynamicNodesCount).flatMap (nodeNews s diff)).countP isEnded = 0 := by
    rw [countP_flatMap]
    refine sum_eq_zero fun x hx => ?_
    obtain ⟨n, -, rfl⟩ := mem_map.mp hx
    exact countP_nodeNews s diff n
  have hrewards (p : Prop) [Decidable p] (t : State) (team : Team) (n : ℕ) :
      (if p then rewards t team n else []).countP isEnded = 0 := by
    split
    · exact countP_rewards t team n
    · rfl
  rw [h.notices_postUpdateImpl hs, countP_append, countP_append, countP_append,
    countP_append, hcount, hnodes, hrewards, hrewards, zero_add, zero_add, zero_add, zero_add]

/-- **An update is right exactly if it is quiet.** -/
theorem Inv.postUpdateImpl_iff (h : Inv s) (ht : Told s) (hs : s.status = .inProgress)
    (diff : ℕ) : NoticesRight (s.postUpdateImpl diff) ↔ Quiet s (.postUpdate diff) := by
  have hserved := beside_served s diff dynamicNodesCount
  have hpoints := gained_served h diff .alliance
  have hcount := h.countP_postUpdateImpl hs (ht.notEnded (by rw [hs]; simp)) diff
  have hticked (hne : scored s diff .alliance ≠ 0) :
      tickPoints ((served s diff dynamicNodesCount).teamPoints .alliance) =
        scored s diff .alliance := by
    rw [← hpoints] at hne ⊢
    unfold gained at hne ⊢
    split
    · rfl
    rename_i hnot
    rw [if_neg hnot] at hne
    exact absurd rfl hne
  unfold NoticesRight Quiet
  rw [hcount, h.notices_postUpdateImpl hs, countP_endNews, h.maxTeamScore_le_counted,
    h.maxTeamScore_le_counted]
  simp only [forall_mem_append, forall_mem_ite, right_rewards, hs, forall_const,
    forall_mem_flatMap, hserved.reputationScoreTics, hserved.reputationTics]
  have hnews : (∀ n ∈ List.range dynamicNodesCount, ∀ e ∈ nodeNews s diff n, e.Right) ↔
      ∀ n < dynamicNodesCount, (s.points n).Ends diff → Deserved (freeAt s diff (n + 1))
        (heldAt s diff (n + 1) (contester (s.points n).node)) :=
    ⟨fun hall n hn => (right_nodeNews hn).mp (hall n (mem_range.mpr hn)),
      fun hall n hn => (right_nodeNews (mem_range.mp hn)).mpr (hall n (mem_range.mp hn))⟩
  rw [hnews]
  constructor
  · rintro ⟨⟨⟨⟨⟨-, hdeserved⟩, halliance⟩, -⟩, -⟩, hend⟩
    refine ⟨hdeserved, fun hne => ?_, hend⟩
    have hlt := halliance hne
    rwa [hticked hne] at hlt
  rintro ⟨hdeserved, halliance, hend⟩
  refine ⟨⟨⟨⟨⟨ht.right.1, hdeserved⟩, fun hne => ?_⟩, nofun⟩,
    right_endNews _⟩, hend⟩
  rw [hticked hne]
  exact halliance hne

/-! ### Every request -/

theorem defence_counts (hn : n < dynamicNodesCount) {type' : ℕ}
    (ht : t = (s.note (.nodesIndex n)).turnNode n (team.index + typeOccupied) 0 type
      teamIndex type' teamIndex') :
    Deserved (t.capturedNodes n team) (t.teamPoints team) ↔ DefenceDeserved s team n := by
  have hpoints (m : ℕ) : t.points m = if m = n then
      (s.points n).turned (team.index + typeOccupied) 0 type' teamIndex' else s.points m := by
    rw [ht]
    exact points_turnNode ..
  have hat : t.nodeAt n = team.index + typeOccupied := by
    unfold nodeAt
    rw [if_pos hn, hpoints, if_pos rfl]
    rfl
  have hfree : freeNodes t = (List.range dynamicNodesCount).countP fun i =>
      decide (i = n ∨ (s.points i).nodeTimer = 0) := by
    refine countP_congr fun i _ => ?_
    rw [decide_eq_true_iff, decide_eq_true_iff, hpoints]
    by_cases hi : i = n
    · simp [hi, turned]
    · simp [hi]
  have hheld : t.teamPoints team = (List.range dynamicNodesCount).countP fun i =>
      decide (i = n ∨ (s.points i).node = team.index + typeOccupied) := by
    refine countP_congr fun i _ => ?_
    rw [decide_eq_true_iff, decide_eq_true_iff, hpoints]
    by_cases hi : i = n
    · simp [hi, turned]
    · simp [hi]
  rw [capturedNodes_eq hat, hfree, hheld]
  rfl

theorem noticesRight_append (hl : l.countP isEnded = 0)
    (hs : NoticesRight s) (ht : t.notices = s.notices ++ l) :
    NoticesRight t ↔ ∀ e ∈ l, e.Right := by
  unfold NoticesRight
  rw [ht, countP_append, hl, forall_mem_append]
  exact ⟨fun h => h.1.2, fun h => ⟨⟨hs.1, h⟩, hs.2⟩⟩

variable {near : ℕ → Bool}

/-- **What a click makes known** ends no match, and is right exactly if the click is quiet. -/
theorem Inv.notices_click (h : Inv s) (team : Team) (near : ℕ → Bool) :
    ∃ l, (s.eventPlayerClickedOnFlag team near).notices = s.notices ++ l ∧
      l.countP isEnded = 0 ∧ ((∀ e ∈ l, e.Right) ↔ Quiet s (.click team near)) := by
  have hteam : team.index + team.other.index = 1 := by cases team <;> rfl
  unfold Quiet
  cases h.clicked team near with
  | idle hidle heq =>
    refine ⟨[], by rw [heq, append_nil], rfl, ?_⟩
    exact iff_of_true (by simp) fun hs hn => absurd hn (hidle hs)
  | own _ hn hnode heq =>
    refine ⟨[.nodesIndex (nearNode near)], by rw [heq]; rfl, rfl, ?_⟩
    refine iff_of_true (forall_mem_singleton.mpr hn) fun _ _ hother => ?_
    unfold typeContested typeOccupied at *
    omega
  | contests _ hn _ _ _ hnode heq =>
    refine ⟨[.nodesIndex (nearNode near)], by rw [heq, notices_turnNode]; rfl, rfl, ?_⟩
    refine iff_of_true (forall_mem_singleton.mpr hn) fun _ _ hother hle => ?_
    unfold typeContested typeOccupied at *
    omega
  | defends hs hn hnode hprev heq =>
    rw [nodeOccupied_eq] at heq
    have hnotices := congrArg notices heq
    dsimp only at hnotices
    rw [notices_turnNode] at hnotices
    refine ⟨_, hnotices.trans (append_assoc ..), ?_, ?_⟩
    · rw [countP_append, countP_singleton, countP_cons, countP_spells]
      rfl
    rw [forall_mem_append, forall_mem_singleton, forall_mem_cons, right_spells,
      defence_counts hn rfl]
    exact ⟨fun hall _ _ _ _ => hall.2.2, fun hquiet => ⟨hn, hn, hquiet hs hn hnode hprev⟩⟩

/-- **A step is right exactly if it is quiet.** -/
theorem Inv.step_iff (h : Inv s) (ht : Told s) (r : Request) :
    NoticesRight (ArathiBasin.step s r) ↔ Quiet s r := by
  cases r with
  | closeDoors =>
    unfold ArathiBasin.step Quiet
    dsimp only
    by_cases hs : s.status = .waitJoin
    · rw [if_pos hs]
      refine iff_of_false (fun hright => ?_) (not_not.mpr hs)
      have hbad := hright.1 (.nodesIndex spiritAlliance) (by
        unfold startingEventCloseDoors
        rw [nodeOccupied_eq, nodeOccupied_eq]
        simp)
      exact absurd hbad (by decide)
    rw [if_neg hs]
    exact iff_of_true ht.right hs
  | openDoors =>
    unfold ArathiBasin.step Quiet
    dsimp only
    refine iff_of_true ?_ trivial
    split <;> exact ht.right
  | click team near =>
    obtain ⟨l, hl, hcount, hiff⟩ := h.notices_click team near
    exact (noticesRight_append hcount ht.right hl).trans hiff
  | postUpdate diff =>
    by_cases hs : s.status = .inProgress
    · exact h.postUpdateImpl_iff ht hs diff
    have hsame : ArathiBasin.step s (.postUpdate diff) = s := if_neg hs
    rw [hsame]
    exact iff_of_true ht.right fun heq => absurd heq hs

theorem Inv.told_step (h : Inv s) (ht : Told s) (r : Request)
    (hright : NoticesRight (ArathiBasin.step s r)) : Told (ArathiBasin.step s r) := by
  refine ⟨hright, fun hstatus => ?_⟩
  cases r with
  | closeDoors =>
    have hquiet : s.status ≠ .waitJoin := (h.step_iff ht .closeDoors).mp hright
    have hsame : ArathiBasin.step s .closeDoors = s := if_neg hquiet
    rw [hsame] at hstatus ⊢
    exact ht.notEnded hstatus
  | openDoors =>
    by_cases hs : s.status = .waitJoin
    · have hopen : ArathiBasin.step s .openDoors = s.startingEventOpenDoors := if_pos hs
      rw [hopen]
      exact ht.notEnded (by rw [hs]; simp)
    have hsame : ArathiBasin.step s .openDoors = s := if_neg hs
    rw [hsame] at hstatus ⊢
    exact ht.notEnded hstatus
  | click team near =>
    obtain ⟨l, hl, hcount, -⟩ := h.notices_click team near
    refine (congrArg (countP isEnded) hl).trans ?_
    rw [countP_append, hcount, ht.notEnded ((h.clicked team near).status ▸ hstatus)]
  | postUpdate diff =>
    by_cases hs : s.status = .inProgress
    · have hend : endNews (counted s diff) = [] := by
        have hstep : ArathiBasin.step s (.postUpdate diff) =
            ((counted s diff).testWin .alliance).testWin .horde := postUpdateImpl_eq hs
        rw [hstep] at hstatus
        unfold testWin endBattleground at hstatus
        unfold endNews
        by_cases ha : maxTeamScore ≤ (counted s diff).teamScores .alliance
        · simp [ha] at hstatus
          split at hstatus <;> simp at hstatus
        by_cases hh : maxTeamScore ≤ (counted s diff).teamScores .horde
        · simp [ha, hh] at hstatus
        · simp [ha, hh]
      refine (h.countP_postUpdateImpl hs (ht.notEnded (by rw [hs]; simp)) diff).trans ?_
      rw [hend]
      rfl
    have hsame : ArathiBasin.step s (.postUpdate diff) = s := if_neg hs
    rw [hsame] at hstatus ⊢
    exact ht.notEnded hstatus

end ZerosCore.Battlegrounds.ArathiBasin
