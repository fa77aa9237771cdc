/-
# The nodes of Arathi Basin

Clicks and updates, in any order and with any `diff`, drive the five nodes of
`BattlegroundAB.cpp` as intended: the capture timer of a node runs exactly while the node
is contested, and once the delay of its banner is over just the objects of its status are
spawned.
-/

import ZerosCore.Battlegrounds.ArathiBasin

namespace ZerosCore.Battlegrounds.ArathiBasin

open Lib List State Point Notice

/-! ### What the nodes should be -/

def Contested (node : ℕ) : Prop := node = 1 ∨ node = 2

instance (node : ℕ) : Decidable (Contested node) :=
  inferInstanceAs (Decidable (_ ∨ _))

/-- The banner and the aura of a status, among the eight objects of a node. -/
def Shows (node k : ℕ) : Prop :=
  k = node ∨ Contested node ∧ k = 7 ∨ 3 ≤ node ∧ k = node + 2

instance (node k : ℕ) : Decidable (Shows node k) :=
  inferInstanceAs (Decidable (_ ∨ _))

/-- The capture timers run exactly while the nodes are contested, and where no banner is
delayed the objects of the status are spawned and no others. -/
def NodesRight (s : State) : Prop :=
  ∀ n < dynamicNodesCount, ((s.points n).nodeTimer ≠ 0 ↔ Contested (s.points n).node) ∧
    (s.status ≠ .waitJoin → (s.points n).bannerTimer.timer = 0 →
      ∀ k < 8, s.spawned (n * 8 + k) = decide (Shows (s.points n).node k))

/-- The capture time of a node ends in an update. -/
def Point.Ends (p : Point) (diff : ℕ) : Prop := p.nodeTimer ≠ 0 ∧ p.nodeTimer ≤ diff

instance (p : Point) (diff : ℕ) : Decidable (p.Ends diff) := inferInstanceAs (Decidable (_ ∧ _))

def contester (node : ℕ) : Team := if node - 1 = 0 then .alliance else .horde

/-! ### Banners -/

variable {s : State} {n m k diff : ℕ} {team : Team}

/-- The type and the team index under which the banner of a status is spawned. -/
def BannerOf (node type teamIndex : ℕ) : Prop :=
  type + teamIndex = node ∧ (node = 0 ∧ type = typeNeutral ∨ Contested node ∧ type = typeContested ∨
      (node = 3 ∨ node = 4) ∧ type = typeOccupied)

theorem spawned_spawnBanner (s : State) (n type teamIndex : ℕ) (on : Bool) (o : ℕ) :
    (s.spawnBanner n type teamIndex on).spawned o =
      if o = n * 8 + type + teamIndex ∨ type ≠ typeNeutral ∧ o = auraOf n type teamIndex
      then on else s.spawned o := by
  unfold spawnBanner spawnBGObject
  by_cases htype : type = typeNeutral
  · simp [htype]
  · by_cases haura : o = auraOf n type teamIndex <;> simp [htype, haura]

variable {type teamIndex : ℕ}

/-- **A banner is spawned together with the aura of its status.** -/
theorem BannerOf.spawned {v : ℕ} (h : BannerOf v type teamIndex) (on : Bool)
    (hk : k < 8) : (s.spawnBanner n type teamIndex on).spawned (m * 8 + k) =
      if m = n ∧ Shows v k then on else s.spawned (m * 8 + k) := by
  obtain ⟨rfl, hv⟩ := h
  rw [spawned_spawnBanner]
  refine if_congr ?_ rfl rfl
  unfold auraOf Shows
  unfold Contested typeNeutral typeContested typeOccupied at *
  split <;> omega

@[simp] theorem points_spawnBanner (s : State) (n type teamIndex : ℕ) (on : Bool) :
    (s.spawnBanner n type teamIndex on).points = s.points := by
  unfold spawnBanner
  split <;> rfl

/-- A match without its nodes and notices. -/
def State.rest (s : State) : State :=
  { s with points := fun _ => ⟨0, 0, ⟨0, 0, 0⟩, 0⟩, spawned := fun _ => false, notices := [] }

/-- A state that differs from another in its nodes and notices only. -/
def Beside (s t : State) : Prop := t.rest = s.rest

variable {t u : State}

theorem Beside.trans (h : Beside s t) (h' : Beside t u) : Beside s u := Eq.trans h' h

theorem Beside.congr {α : Type} (h : Beside s t) (f : State → α) : f t.rest = f s.rest :=
  congrArg f h

theorem Beside.status (h : Beside s t) : t.status = s.status := h.congr State.status

theorem beside_note (s : State) (e : Notice) : Beside s (s.note e) := rfl

theorem beside_spawnBanner (s : State) (n type teamIndex : ℕ) (on : Bool) :
    Beside s (s.spawnBanner n type teamIndex on) := by
  unfold spawnBanner
  split <;> rfl

@[simp] theorem notices_spawnBanner (s : State) (n type teamIndex : ℕ) (on : Bool) :
    (s.spawnBanner n type teamIndex on).notices = s.notices := by
  unfold spawnBanner
  split <;> rfl

/-! ### The change of a node -/

/-- What `_NodeOccupied` makes known after it has read the node. -/
def spells (captured held : ℕ) (team : Team) : List Notice :=
  (if 5 ≤ captured then [Notice.castSpell 5 team held] else []) ++
    if 4 ≤ captured then [Notice.castSpell 4 team held] else []

theorem nodeOccupied_eq (s : State) (n : ℕ) (team : Team) :
    s.nodeOccupied n team = { s with notices := s.notices ++
      (nodesIndex n :: spells (s.capturedNodes n team) (s.teamPoints team) team) } := by
  unfold nodeOccupied spells note
  by_cases h4 : 4 ≤ s.capturedNodes n team
  · by_cases h5 : 5 ≤ s.capturedNodes n team <;> simp [h4, h5]
  have h5 : ¬5 ≤ s.capturedNodes n team := by omega
  simp [h4, h5]

@[simp] theorem points_nodeOccupied (s : State) (n : ℕ) (team : Team) :
    (s.nodeOccupied n team).points = s.points := by
  rw [nodeOccupied_eq]

@[simp] theorem spawned_nodeOccupied (s : State) (n : ℕ) (team : Team) :
    (s.nodeOccupied n team).spawned = s.spawned := by
  rw [nodeOccupied_eq]

theorem beside_nodeOccupied (s : State) (n : ℕ) (team : Team) :
    Beside s (s.nodeOccupied n team) := by
  rw [nodeOccupied_eq]
  rfl

/-- The node after a change of its status. -/
def Point.turned (p : Point) (value nodeTimer type teamIndex : ℕ) : Point :=
  ⟨value, p.node, ⟨2000, type, teamIndex⟩, nodeTimer⟩

theorem points_turnNode (s : State) (n value nodeTimer type teamIndex type' teamIndex' m : ℕ) :
    (s.turnNode n value nodeTimer type teamIndex type' teamIndex').points m =
      if m = n then (s.points n).turned value nodeTimer type' teamIndex' else s.points m := by
  unfold turnNode createBanner delBanner setPoint turned
  by_cases hm : m = n <;> simp [hm]

theorem beside_turnNode (s : State) (n value nodeTimer type teamIndex type' teamIndex' : ℕ) :
    Beside s (s.turnNode n value nodeTimer type teamIndex type' teamIndex') := by
  unfold turnNode createBanner delBanner setPoint
  exact beside_spawnBanner (s.setPoint n
    ⟨value, (s.points n).node, (s.points n).bannerTimer, nodeTimer⟩) n type teamIndex false

@[simp] theorem notices_turnNode (s : State)
    (n value nodeTimer type teamIndex type' teamIndex' : ℕ) :
    (s.turnNode n value nodeTimer type teamIndex type' teamIndex').notices = s.notices := by
  unfold turnNode createBanner delBanner setPoint
  simp

theorem spawned_turnNode {v : ℕ} (h : BannerOf v type teamIndex)
    (s : State) (n value nodeTimer type' teamIndex' m : ℕ) (hk : k < 8) :
    (s.turnNode n value nodeTimer type teamIndex type' teamIndex').spawned (m * 8 + k) =
      if m = n ∧ Shows v k then false else s.spawned (m * 8 + k) := by
  unfold turnNode createBanner delBanner setPoint
  exact h.spawned false hk

/-! ### The invariant -/

/-- A node of a match. -/
structure PointOk (p : Point) : Prop where
  node_le : p.node ≤ 4
  timer : p.nodeTimer ≠ 0 ↔ Contested p.node
  /-- A contested node whose previous status is an occupied one was taken from the team
  that occupied it. -/
  prev : Contested p.node → typeOccupied ≤ p.prevNode → p.prevNode + p.node = 5
  /-- The banner that waits is the one of the status. -/
  banner : p.bannerTimer.timer ≠ 0 → BannerOf p.node p.bannerTimer.type p.bannerTimer.teamIndex

/-- The objects of a node: those of its status, or none while its banner is delayed. -/
def ObjectsOk (spawned : ℕ → Bool) (n : ℕ) (p : Point) : Prop :=
  ∀ k < 8, spawned (n * 8 + k) = decide (p.bannerTimer.timer = 0 ∧ Shows p.node k)

structure Inv (s : State) : Prop where
  point : ∀ n < dynamicNodesCount, PointOk (s.points n)
  objects : s.status ≠ .waitJoin → ∀ n < dynamicNodesCount, ObjectsOk s.spawned n (s.points n)
  fresh : s.status = .waitJoin → ∀ n < dynamicNodesCount,
    s.points n = ⟨0, 0, ⟨0, 0, 0⟩, 0⟩ ∧ ∀ k < 8, s.spawned (n * 8 + k) = false

theorem Inv.nodesRight (h : Inv s) : NodesRight s := by
  intro n hn
  refine ⟨(h.point n hn).timer, fun hstatus hbanner k hk => ?_⟩
  rw [h.objects hstatus n hn k hk]
  simp [hbanner]

theorem Inv.beside (h : Inv s) (hb : Beside s t) (hpoints : t.points = s.points)
    (hspawned : t.spawned = s.spawned) : Inv t := by
  refine ⟨?_, fun hne => ?_, fun heq => ?_⟩
  · rw [hpoints]
    exact h.point
  · rw [hpoints, hspawned]
    exact h.objects (hb.status ▸ hne)
  rw [hpoints, hspawned]
  exact h.fresh (hb.status ▸ heq)

/-- **One node changes.** -/
theorem Inv.change {p : Point} (h : Inv s) (hs : s.status = .inProgress)
    (hstatus : t.status = s.status) (hp : PointOk p)
    (hpoints : ∀ m, t.points m = if m = n then p else s.points m)
    (hobjects : ObjectsOk t.spawned n p)
    (hothers : ∀ m ≠ n, ∀ k < 8, t.spawned (m * 8 + k) = s.spawned (m * 8 + k)) : Inv t := by
  have hne : s.status ≠ .waitJoin := by rw [hs]; simp
  refine ⟨fun m hm => ?_, fun _ m hm => ?_, fun heq => absurd (hstatus ▸ heq) hne⟩
  · rw [hpoints]
    split
    · exact hp
    · exact h.point m hm
  rw [hpoints]
  split
  · rename_i hmn
    rw [hmn]
    exact hobjects
  rename_i hmn
  intro k hk
  rw [hothers m hmn k hk]
  exact h.objects hne m hm k hk

variable {teamIndex' : ℕ}

/-- **A change of status keeps the invariant**, if the banner of the old status is burnt and
the one of the new status is queued. -/
theorem Inv.turnNode (h : Inv s) (hs : s.status = .inProgress) (hn : n < dynamicNodesCount)
    {value nodeTimer type' : ℕ}
    (hold : BannerOf (s.points n).node type teamIndex) (hnew : BannerOf value type' teamIndex')
    (htimer : nodeTimer ≠ 0 ↔ Contested value)
    (hprev : Contested value → typeOccupied ≤ (s.points n).node → (s.points n).node + value = 5) :
    Inv (s.turnNode n value nodeTimer type teamIndex type' teamIndex') := by
  have hle : value ≤ 4 := by
    obtain ⟨-, hv⟩ := hnew
    unfold Contested at hv
    omega
  refine h.change hs (beside_turnNode ..).status (n := n)
    (p := (s.points n).turned value nodeTimer type' teamIndex')
    ⟨hle, htimer, hprev, fun _ => hnew⟩ (points_turnNode s n _ _ _ _ _ _) ?_ ?_
  · intro k hk
    rw [spawned_turnNode hold s n _ _ _ _ n hk]
    by_cases hshow : Shows (s.points n).node k
    · simp [hshow, turned]
    rw [if_neg (fun hand => hshow hand.2), h.objects (by rw [hs]; simp) n hn k hk]
    simp [hshow, turned]
  intro m hm k hk
  rw [spawned_turnNode hold s n _ _ _ _ m hk, if_neg fun hand => hm hand.1]

/-! ### A node in an update -/

/-- The node after its banner was served. -/
def Point.shown (p : Point) (diff : ℕ) : Point :=
  { p with bannerTimer := { p.bannerTimer with timer := p.bannerTimer.timer - diff } }

/-- The node after its capture timer was served. -/
def Point.captured (p : Point) (diff : ℕ) : Point :=
  if p.Ends diff then
    p.turned (p.node + 2) 0 typeOccupied (p.node - 1)
  else { p with nodeTimer := p.nodeTimer - diff }

theorem Point.captured_shown (p : Point) (diff : ℕ) : (p.shown diff).captured diff =
    if p.Ends diff then (p.shown diff).turned (p.node + 2) 0 typeOccupied (p.node - 1)
    else { p.shown diff with nodeTimer := p.nodeTimer - diff } := rfl

theorem Point.node_captured (p : Point) (diff : ℕ) : ((p.shown diff).captured diff).node =
    if p.Ends diff then p.node + 2 else p.node := by
  rw [captured_shown]
  split <;> rfl

theorem Point.nodeTimer_captured (p : Point) (diff : ℕ) : ((p.shown diff).captured diff).nodeTimer =
      if p.Ends diff then 0 else p.nodeTimer - diff := by
  rw [captured_shown]
  split <;> rfl

theorem Point.prevNode_captured (p : Point) (diff : ℕ) :
    ((p.shown diff).captured diff).prevNode = if p.Ends diff then p.node else p.prevNode := by
  rw [captured_shown]
  split <;> rfl

theorem points_bannerUpdate (diff : ℕ) (s : State) (n m : ℕ) : (bannerUpdate diff s n).points m =
      if m = n then (s.points n).shown diff else s.points m := by
  unfold bannerUpdate shown
  by_cases hzero : (s.points n).bannerTimer.timer = 0
  · by_cases hm : m = n
    · subst hm
      simp only [hzero, if_true, Nat.zero_sub]
      rw [← hzero]
    · simp [hzero, hm]
  by_cases hlt : diff < (s.points n).bannerTimer.timer
  · simp [hzero, hlt, setPoint]
  have hsub : (s.points n).bannerTimer.timer - diff = 0 := by omega
  simp [hzero, hlt, hsub, setPoint, createBannerNow]

theorem beside_bannerUpdate (diff : ℕ) (s : State) (n : ℕ) : Beside s (bannerUpdate diff s n) := by
  unfold bannerUpdate
  dsimp only
  split
  · rfl
  split
  · rfl
  · exact beside_spawnBanner (s.setPoint n _) n _ _ true

@[simp] theorem notices_bannerUpdate (diff : ℕ) (s : State) (n : ℕ) :
    (bannerUpdate diff s n).notices = s.notices := by
  unfold bannerUpdate
  dsimp only
  split
  · rfl
  split
  · rfl
  · exact notices_spawnBanner ..

/-- **The delay of a banner.**  The banner that is spawned at its end is the one of the
status. -/
theorem Inv.bannerUpdate (h : Inv s) (hs : s.status = .inProgress) (hn : n < dynamicNodesCount)
    (diff : ℕ) : Inv (bannerUpdate diff s n) := by
  have hp := h.point n hn
  have hobjects := h.objects (by rw [hs]; simp) n hn
  have hok : PointOk ((s.points n).shown diff) := by
    refine { hp with banner := fun htimer => hp.banner fun hzero => htimer ?_ }
    unfold shown
    dsimp only
    rw [hzero, Nat.zero_sub]
  refine h.change hs (beside_bannerUpdate diff s n).status hok (points_bannerUpdate diff s n) ?_ ?_
  · intro k hk
    unfold State.bannerUpdate
    dsimp only
    split
    · rename_i hzero
      rw [hobjects k hk]
      simp [shown, hzero]
    rename_i hzero
    split
    · rename_i hlt
      refine (hobjects k hk).trans ?_
      have hne : (s.points n).bannerTimer.timer - diff ≠ 0 := by omega
      simp [shown, hzero, hne]
    rename_i hlt
    have heq : (s.points n).bannerTimer.timer - diff = 0 := by omega
    refine ((hp.banner hzero).spawned true hk).trans ?_
    by_cases hshow : Shows (s.points n).node k
    · simp [shown, hshow, heq]
    rw [if_neg fun hand => hshow hand.2]
    refine (hobjects k hk).trans ?_
    simp [shown, hshow]
  intro m hm k hk
  unfold State.bannerUpdate
  dsimp only
  split
  · rfl
  rename_i hzero
  split
  · rfl
  · exact ((hp.banner hzero).spawned true hk).trans (if_neg fun hand => hm hand.1)

theorem captureUpdate_of_not_ends (h : ¬(s.points n).Ends diff) : captureUpdate diff s n =
    s.setPoint n { s.points n with nodeTimer := (s.points n).nodeTimer - diff } := by
  unfold Point.Ends at h
  unfold captureUpdate
  dsimp only
  by_cases hzero : (s.points n).nodeTimer = 0
  · rw [if_pos hzero, hzero, Nat.zero_sub]
    have hsame : (fun m => if m = n then { s.points n with nodeTimer := 0 } else s.points m) =
        s.points := by
      funext m
      split
      · rename_i hm
        rw [hm, ← hzero]
      · rfl
    unfold setPoint
    rw [hsame]
  · rw [if_neg hzero, if_pos (by omega)]

/-- A node goes to the team that contests it. -/
def State.capture (s : State) (n : ℕ) : State :=
  s.turnNode n ((s.points n).node + 2) 0 typeContested ((s.points n).node - 1) typeOccupied
    ((s.points n).node - 1)

theorem captureUpdate_of_ends (h : (s.points n).Ends diff) : captureUpdate diff s n =
    (s.capture n).nodeOccupied n (contester (s.points n).node) := by
  obtain ⟨hne, hle⟩ := h
  unfold captureUpdate
  dsimp only
  rw [if_neg hne, if_neg (not_lt.mpr hle)]
  rfl

theorem points_captureUpdate (diff : ℕ) (s : State) (n m : ℕ) : (captureUpdate diff s n).points m =
      if m = n then (s.points n).captured diff else s.points m := by
  unfold captured
  by_cases hends : (s.points n).Ends diff
  · rw [captureUpdate_of_ends hends, points_nodeOccupied, capture, points_turnNode, if_pos hends]
  rw [captureUpdate_of_not_ends hends, if_neg hends]
  rfl

theorem beside_captureUpdate (diff : ℕ) (s : State) (n : ℕ) :
    Beside s (captureUpdate diff s n) := by
  by_cases hends : (s.points n).Ends diff
  · rw [captureUpdate_of_ends hends]
    exact .trans (beside_turnNode ..) (beside_nodeOccupied ..)
  rw [captureUpdate_of_not_ends hends]
  rfl

/-- **The capture of a node.** -/
theorem Inv.captureUpdate (h : Inv s) (hs : s.status = .inProgress) (hn : n < dynamicNodesCount)
    (diff : ℕ) : Inv (captureUpdate diff s n) := by
  have hp := h.point n hn
  by_cases hends : (s.points n).Ends diff
  · rw [captureUpdate_of_ends hends]
    have hcontested := hp.timer.mp hends.1
    have hcapture : Inv (s.capture n) := by
      unfold Contested at hcontested
      refine h.turnNode hs hn ⟨?_, .inr (.inl ⟨hcontested, rfl⟩)⟩
        ⟨?_, .inr (.inr ⟨by omega, rfl⟩)⟩ ?_ ?_
      · unfold typeContested
        omega
      · unfold typeOccupied
        omega
      · unfold Contested
        omega
      unfold Contested
      omega
    exact hcapture.beside (beside_nodeOccupied ..) (points_nodeOccupied ..)
      (spawned_nodeOccupied ..)
  rw [captureUpdate_of_not_ends hends]
  have hok : PointOk { s.points n with nodeTimer := (s.points n).nodeTimer - diff } := by
    refine { hp with timer := ?_ }
    rw [← hp.timer]
    unfold Point.Ends at hends
    dsimp only
    omega
  exact h.change hs rfl hok (fun _ => rfl) (h.objects (by rw [hs]; simp) n hn)
    fun _ _ _ _ => rfl

theorem points_nodeUpdate (diff : ℕ) (s : State) (n m : ℕ) : (nodeUpdate diff s n).points m =
      if m = n then ((s.points n).shown diff).captured diff else s.points m := by
  unfold nodeUpdate
  rw [points_captureUpdate, points_bannerUpdate, points_bannerUpdate, if_pos rfl]
  by_cases hm : m = n
  · rw [if_pos hm, if_pos hm]
    rfl
  rw [if_neg hm, if_neg hm, if_neg hm]
  rfl

theorem beside_nodeUpdate (diff : ℕ) (s : State) (n : ℕ) : Beside s (nodeUpdate diff s n) := by
  exact ((beside_note ..).trans (beside_bannerUpdate ..)).trans (beside_captureUpdate ..)

theorem Inv.nodeUpdate (h : Inv s) (hs : s.status = .inProgress) (hn : n < dynamicNodesCount)
    (diff : ℕ) : Inv (nodeUpdate diff s n) := by
  have hnote := h.beside (beside_note s (.nodesIndex n)) rfl rfl
  refine (hnote.bannerUpdate hs hn diff).captureUpdate ?_ hn diff
  rw [(beside_bannerUpdate ..).status]
  exact hs

/-! ### All nodes in an update -/

/-- The match after an update has served the nodes before `k`. -/
def served (s : State) (diff k : ℕ) : State := (List.range k).foldl (State.nodeUpdate diff) s

theorem served_succ (s : State) (diff k : ℕ) :
    served s diff (k + 1) = nodeUpdate diff (served s diff k) k := by
  unfold served
  rw [range_succ, foldl_append]
  rfl

theorem points_served (s : State) (diff k m : ℕ) : (served s diff k).points m =
    if m < k then ((s.points m).shown diff).captured diff else s.points m := by
  induction k with
  | zero => simp [served]
  | succ k ih =>
    rw [served_succ, points_nodeUpdate]
    by_cases hm : m = k
    · subst hm
      rw [ih, if_pos rfl, if_neg (lt_irrefl m), if_pos (Nat.lt_succ_self m)]
    rw [if_neg hm, ih]
    refine if_congr ?_ rfl rfl
    omega

theorem beside_served (s : State) (diff k : ℕ) : Beside s (served s diff k) := by
  induction k with
  | zero => rfl
  | succ k ih =>
    rw [served_succ]
    exact ih.trans (beside_nodeUpdate ..)

theorem Inv.of_served (h : Inv s) (hs : s.status = .inProgress) (diff : ℕ)
    (hk : k ≤ dynamicNodesCount) : Inv (served s diff k) := by
  induction k with
  | zero => exact h
  | succ k ih =>
    rw [served_succ]
    refine (ih (by omega)).nodeUpdate ?_ (by omega) diff
    rw [(beside_served s diff k).status]
    exact hs

/-! ### The points and the end of an update -/

/-- What a team leaves as it is when its points are counted. -/
structure Counted (s t : State) (team : Team) : Prop where
  points : t.points = s.points
  spawned : t.spawned = s.spawned
  status : t.status = s.status
  teamScores : ∀ other ≠ team, t.teamScores other = s.teamScores other
  lastTick : ∀ other ≠ team, t.lastTick other = s.lastTick other

theorem counted_teamUpdate (diff : ℕ) (s : State) (team : Team) :
    Counted s (teamUpdate diff s team) team := by
  unfold teamUpdate scoreTick
  dsimp only
  split
  · exact ⟨rfl, rfl, rfl, fun _ _ => rfl, fun _ _ => rfl⟩
  split
  · exact ⟨rfl, rfl, rfl, fun _ hne => if_neg hne, fun _ hne => if_neg hne⟩
  · exact ⟨rfl, rfl, rfl, fun _ _ => rfl, fun _ hne => if_neg hne⟩


/-- The match when the points of an update are counted. -/
def counted (s : State) (diff : ℕ) : State :=
  State.teamUpdate diff (State.teamUpdate diff (served s diff dynamicNodesCount) .alliance) .horde

theorem postUpdateImpl_eq (hs : s.status = .inProgress) : s.postUpdateImpl diff =
    ((counted s diff).testWin .alliance).testWin .horde := by
  unfold postUpdateImpl
  rw [if_pos hs]
  rfl

theorem Inv.finish (h : Inv s) (hs : s.status = .inProgress)
    (hstatus : t.status ≠ .waitJoin) (hpoints : t.points = s.points)
    (hspawned : t.spawned = s.spawned) : Inv t := by
  refine ⟨?_, fun _ => ?_, fun heq => absurd heq hstatus⟩
  · rw [hpoints]
    exact h.point
  rw [hpoints, hspawned]
  exact h.objects (by rw [hs]; simp)

theorem postUpdateImpl_nodes (hs : s.status = .inProgress) (diff : ℕ) :
    (s.postUpdateImpl diff).points = (served s diff dynamicNodesCount).points ∧
      (s.postUpdateImpl diff).spawned = (served s diff dynamicNodesCount).spawned ∧
      (s.postUpdateImpl diff).status ≠ .waitJoin := by
  have hhorde := counted_teamUpdate diff
    (teamUpdate diff (served s diff dynamicNodesCount) .alliance) .horde
  have halliance := counted_teamUpdate diff (served s diff dynamicNodesCount) .alliance
  have hserved := (beside_served s diff dynamicNodesCount).status
  have hstatus : (counted s diff).status ≠ .waitJoin := by
    unfold counted
    rw [hhorde.status, halliance.status, hserved, hs]
    simp
  have hpoints : (counted s diff).points = (served s diff dynamicNodesCount).points :=
    hhorde.points.trans halliance.points
  have hspawned : (counted s diff).spawned = (served s diff dynamicNodesCount).spawned :=
    hhorde.spawned.trans halliance.spawned
  rw [postUpdateImpl_eq hs, ← hpoints, ← hspawned]
  unfold testWin endBattleground
  by_cases ha : maxTeamScore ≤ (counted s diff).teamScores .alliance
  · by_cases hh : maxTeamScore ≤ (counted s diff).teamScores .horde <;> simp [ha, hh]
  by_cases hh : maxTeamScore ≤ (counted s diff).teamScores .horde
  · simp [ha, hh]
  · simpa [ha, hh] using hstatus

/-- **An update keeps the invariant.** -/
theorem Inv.postUpdateImpl (h : Inv s) (diff : ℕ) : Inv (s.postUpdateImpl diff) := by
  by_cases hs : s.status = .inProgress
  · obtain ⟨hpoints, hspawned, hstatus⟩ := postUpdateImpl_nodes hs diff
    refine (h.of_served hs diff le_rfl).finish ?_ hstatus hpoints hspawned
    rw [(beside_served ..).status]
    exact hs
  unfold State.postUpdateImpl
  rw [if_neg hs]
  exact h

/-! ### A click -/

variable {near : ℕ → Bool}


/-- What a click does: nothing but a look at the node, if it is one's own; otherwise the node
is contested, or defended if the other team contests it and it was one's own before. -/
inductive Clicked (s : State) (team : Team) (n : ℕ) (t : State) : Prop
  | idle (hidle : s.status = .inProgress → ¬n < dynamicNodesCount) (heq : t = s)
  | own (hs : s.status = .inProgress) (hn : n < dynamicNodesCount)
    (hnode : (s.points n).node = team.index + typeContested ∨
      (s.points n).node = team.index + typeOccupied) (heq : t = s.note (.nodesIndex n))
  | contests (hs : s.status = .inProgress) (hn : n < dynamicNodesCount) (type teamIndex : ℕ)
    (hold : BannerOf (s.points n).node type teamIndex)
    (hnode : (s.points n).node = 0 ∨ (s.points n).node = team.other.index + typeContested ∧
      (s.points n).prevNode < typeOccupied ∨ (s.points n).node = team.other.index + typeOccupied)
    (heq : t = (s.note (.nodesIndex n)).turnNode n (team.index + typeContested)
      flagCapturingTime type teamIndex typeContested team.index)
  | defends (hs : s.status = .inProgress) (hn : n < dynamicNodesCount)
    (hnode : (s.points n).node = team.other.index + typeContested)
    (hprev : typeOccupied ≤ (s.points n).prevNode)
    (heq : t = ((s.note (.nodesIndex n)).turnNode n (team.index + typeOccupied) 0 typeContested
      team.other.index typeOccupied team.index).nodeOccupied n team)

theorem nearNode_of_not_lt (h : ¬nearNode near < dynamicNodesCount) :
    nearNode near = dynamicNodesCount := by
  unfold nearNode at h ⊢
  cases hfind : (List.range dynamicNodesCount).find? near with
  | none => rfl
  | some n =>
    rw [hfind] at h
    exact absurd (mem_range.mp (mem_of_find?_eq_some hfind)) h

/-- **Every click is one of these.** -/
theorem Inv.clicked (h : Inv s) (team : Team) (near : ℕ → Bool) :
    Clicked s team (nearNode near) (s.eventPlayerClickedOnFlag team near) := by
  by_cases hs : s.status = .inProgress
  swap
  · exact .idle (fun heq => absurd heq hs) (if_pos hs)
  by_cases hn : nearNode near < dynamicNodesCount
  swap
  · refine .idle (fun _ => hn) ?_
    unfold eventPlayerClickedOnFlag
    rw [if_neg (not_not.mpr hs)]
    exact if_pos (nearNode_of_not_lt hn)
  set n := nearNode near
  set t := s.note (.nodesIndex n)
  have hle := (h.point n hn).node_le
  have heq : s.eventPlayerClickedOnFlag team near =
      if ¬((s.points n).node = 0 ∨ team.index = (s.points n).node % 2) then t
      else if (s.points n).node = typeNeutral then
        t.turnNode n (team.index + 1) flagCapturingTime typeNeutral 0 typeContested team.index
      else if (s.points n).node = 1 ∨ (s.points n).node = 2 then
        if (s.points n).prevNode < typeOccupied then
          t.turnNode n (team.index + typeContested) flagCapturingTime
            typeContested team.other.index typeContested team.index
        else
          (t.turnNode n (team.index + typeOccupied) 0
            typeContested team.other.index typeOccupied team.index).nodeOccupied n team
      else
        t.turnNode n (team.index + typeContested) flagCapturingTime
          typeOccupied team.other.index typeContested team.index := by
    unfold eventPlayerClickedOnFlag
    rw [if_neg (not_not.mpr hs)]
    dsimp only
    rw [if_neg hn.ne]
    rfl
  have hteam : team.index + team.other.index = 1 := by cases team <;> rfl
  rw [heq]
  unfold typeNeutral typeContested typeOccupied
  by_cases howned : (s.points n).node = 0 ∨ team.index = (s.points n).node % 2
  · rw [if_neg (not_not.mpr howned)]
    by_cases hzero : (s.points n).node = 0
    · rw [if_pos hzero]
      exact .contests hs hn 0 0 ⟨hzero.symm, .inl ⟨hzero, rfl⟩⟩ (.inl hzero) rfl
    rw [if_neg hzero]
    by_cases hcontested : (s.points n).node = 1 ∨ (s.points n).node = 2
    · have hother : (s.points n).node = team.other.index + 1 := by omega
      rw [if_pos hcontested]
      by_cases hprev : (s.points n).prevNode < 3
      · rw [if_pos hprev]
        exact .contests hs hn 1 team.other.index ⟨by omega, .inr (.inl ⟨hcontested, rfl⟩)⟩
          (.inr (.inl ⟨hother, hprev⟩)) rfl
      rw [if_neg hprev]
      exact .defends hs hn hother (not_lt.mp hprev) rfl
    have hother : (s.points n).node = team.other.index + 3 := by omega
    rw [if_neg hcontested]
    exact .contests hs hn 3 team.other.index ⟨by omega, .inr (.inr ⟨by omega, rfl⟩)⟩
      (.inr (.inr hother)) rfl
  rw [if_pos howned]
  refine .own hs hn ?_ rfl
  unfold typeContested typeOccupied
  omega

theorem Clicked.points_of_ne (h : Clicked s team n t) (hm : m ≠ n) :
    t.points m = s.points m := by
  cases h with
  | idle _ heq => rw [heq]
  | own _ _ _ heq => rw [heq]; rfl
  | contests _ _ _ _ _ _ heq => rw [heq, points_turnNode, if_neg hm]; rfl
  | defends _ _ _ _ heq => rw [heq, points_nodeOccupied, points_turnNode, if_neg hm]; rfl

theorem Clicked.status (h : Clicked s team n t) : t.status = s.status := by
  cases h with
  | idle _ heq => rw [heq]
  | own _ _ _ heq => rw [heq]; rfl
  | contests _ _ _ _ _ _ heq => rw [heq, (beside_turnNode ..).status]; rfl
  | defends _ _ _ _ heq =>
    rw [heq, (beside_nodeOccupied ..).status, (beside_turnNode ..).status]
    rfl

theorem Inv.contested (h : Inv s) (hs : s.status = .inProgress) (hn : n < dynamicNodesCount)
    (hold : BannerOf (s.points n).node type teamIndex) (hnode : (s.points n).node = 0 ∨
      (s.points n).node = team.other.index + typeContested ∧ (s.points n).prevNode < typeOccupied ∨
      (s.points n).node = team.other.index + typeOccupied) :
    Inv ((s.note (.nodesIndex n)).turnNode n (team.index + typeContested) flagCapturingTime type
      teamIndex typeContested team.index) := by
  have hnote := h.beside (beside_note s (.nodesIndex n)) rfl rfl
  have hteam : team.index + team.other.index = 1 := by cases team <;> rfl
  unfold typeContested typeOccupied at hnode
  have hcontested : Contested (team.index + typeContested) := by
    unfold Contested typeContested
    omega
  refine hnote.turnNode hs hn hold ⟨?_, .inr (.inl ⟨hcontested, rfl⟩)⟩ ?_ fun _ hle => ?_
  · omega
  · exact iff_of_true (by decide) hcontested
  have hle' : typeOccupied ≤ (s.points n).node := hle
  have hnode' : ((s.note (.nodesIndex n)).points n).node = (s.points n).node := rfl
  rw [hnode']
  unfold typeOccupied at hle'
  unfold typeContested
  omega

theorem Inv.defended (h : Inv s) (hs : s.status = .inProgress) (hn : n < dynamicNodesCount)
    (hnode : (s.points n).node = team.other.index + typeContested) :
    Inv ((s.note (.nodesIndex n)).turnNode n (team.index + typeOccupied) 0 typeContested
      team.other.index typeOccupied team.index) := by
  have hnote := h.beside (beside_note s (.nodesIndex n)) rfl rfl
  have hteam : team.index + team.other.index = 1 := by cases team <;> rfl
  have hnot : ¬Contested (team.index + typeOccupied) := by
    unfold Contested typeOccupied
    omega
  have hcontested : Contested (s.points n).node := by
    unfold Contested
    unfold typeContested at hnode
    omega
  refine hnote.turnNode hs hn ⟨?_, .inr (.inl ⟨hcontested, rfl⟩)⟩
    ⟨Nat.add_comm _ _, .inr (.inr ⟨?_, rfl⟩)⟩ ?_ fun hc => absurd hc hnot
  · exact (Nat.add_comm _ _).trans hnode.symm
  · unfold typeOccupied
    omega
  · exact iff_of_false (by simp) hnot

/-- **A click keeps the invariant.** -/
theorem Inv.click (h : Inv s) (team : Team) (near : ℕ → Bool) :
    Inv (s.eventPlayerClickedOnFlag team near) := by
  cases h.clicked team near with
  | idle _ heq =>
    rw [heq]
    exact h
  | own _ _ _ heq =>
    rw [heq]
    exact h.beside (beside_note ..) rfl rfl
  | contests hs hn type teamIndex hold hnode heq =>
    rw [heq]
    exact h.contested hs hn hold hnode
  | defends hs hn hnode _ heq =>
    rw [heq]
    exact (h.defended hs hn hnode).beside (beside_nodeOccupied ..) (points_nodeOccupied ..)
      (spawned_nodeOccupied ..)

/-! ### Every request -/

/-- **A step keeps the invariant.** -/
theorem Inv.step (h : Inv s) (r : Request) : Inv (step s r) := by
  cases r with
  | closeDoors =>
    unfold ArathiBasin.step
    dsimp only
    split
    · rename_i hs
      unfold startingEventCloseDoors
      refine Inv.beside (s := { s with spawned := fun o =>
        if o < dynamicNodesCount * 8 then false else s.spawned o }) ?_
        ((beside_nodeOccupied ..).trans (beside_nodeOccupied ..)) ?_ ?_
      · refine ⟨h.point, fun hne => absurd hs hne, fun _ n hn => ⟨(h.fresh hs n hn).1, ?_⟩⟩
        intro k hk
        dsimp only
        rw [if_pos (by omega)]
      · rw [points_nodeOccupied, points_nodeOccupied]
      · rw [spawned_nodeOccupied, spawned_nodeOccupied]
    · exact h
  | openDoors =>
    unfold ArathiBasin.step
    dsimp only
    split
    · rename_i hs
      refine ⟨h.point, fun _ n hn k hk => ?_, nofun⟩
      obtain ⟨hpoint, hspawned⟩ := h.fresh hs n hn
      have hpoint' : (s.startingEventOpenDoors.points n) = ⟨0, 0, ⟨0, 0, 0⟩, 0⟩ := hpoint
      rw [hpoint']
      unfold startingEventOpenDoors
      dsimp only
      rw [hspawned k hk]
      by_cases hzero : k = 0
      · rw [if_pos (by omega)]
        simp [Shows, hzero]
      rw [if_neg (by omega)]
      simp [Shows, hzero, Contested]
    · exact h
  | click team near => exact h.click team near
  | postUpdate diff => exact h.postUpdateImpl diff

theorem inv_reset (isBGWeekend : Bool) : Inv (reset isBGWeekend) where
  point _ _ := by
    refine ⟨Nat.zero_le 4, ?_, fun hc => ?_, fun hne => absurd rfl hne⟩
    · simp [reset, Contested]
    · simp [reset, Contested] at hc
  objects hne := absurd rfl hne
  fresh _ _ _ := ⟨rfl, fun _ _ => rfl⟩

end ZerosCore.Battlegrounds.ArathiBasin
