/-
# Banners and reinforcements of Alterac Valley

The numbers of the banners fit together: along every run no assertion of the node
functions fails, and a node that is not a destroyed tower has one banner spawned, the one
`GetObjectThroughNode` names (`Inv.step`).

The reinforcements do not.  `UpdateScore` is called for the team that suffers a loss, or
owns a mine, and writes the score of the other team; so whenever a player or a captain
dies, a tower falls or a mine ticks, the wrong score moves.  `PostUpdateImpl` goes on with
the towers after one of them has ended the match, and each further one ends it again.
The score part of the statement holds in exactly the runs in which no score is changed
(`alterac_valley`).
-/

import ZerosCore.Battlegrounds.AlteracValley

namespace ZerosCore.Battlegrounds.AlteracValley

open Lib List Option State AlteracValley

variable {s : State} {n : Node} {i i' : NodeInfo} {team : Team} {o o' : ℕ}

/-! ### What a match should keep -/

/-- No assertion has failed, and each node that is not a destroyed tower has exactly one
of its banners spawned: the one that `GetObjectThroughNode` names. -/
structure NodesKept (s : State) : Prop where
  asserted : s.failed = false
  banner : ∀ n, ¬((s.nodes n).tower = true ∧ (s.nodes n).state = .destroyed) →
    ∃ o ≤ 44, getObjectThroughNode n (s.nodes n).owner (s.nodes n).state = some o ∧
      getNodeThroughObject o = some n ∧
      ∀ o' ≤ 44, getNodeThroughObject o' = some n → (s.spawned o' = true ↔ o' = o)

/-- A loss lowers the score of the team that suffers it and a mine raises that of its
owner, and the other team keeps its score; who wins has an opponent without
reinforcements, or without a general. -/
def Notice.Right : Notice → Prop
  | .score team points before after =>
    (points < 0 → after.of team < before.of team) ∧ (0 < points → before.of team < after.of team) ∧
      after.of team.other = before.of team.other
  | .ended winner scores general => scores.of winner.other < 1 ∨ general = some winner.other

def Notice.isEnded : Notice → Bool
  | .score .. => false
  | .ended .. => true

/-- What was made known is right, and the match ended once at most. -/
structure ScoresKept (s : State) : Prop where
  right : ∀ e ∈ s.notices, e.Right
  once : s.notices.countP Notice.isEnded ≤ 1

/-- Nothing changes a score: nobody dies, no captain falls, no tower is destroyed and no
mine ticks for an owner. -/
def Quiet (s : State) (r : Request) : Prop :=
  s.failed = false → s.status = .inProgress →
    match r with
    | .killPlayer _ => False
    | .killCaptain team => s.captainAlive team = false
    | .postUpdate diff =>
      (0 < s.nextMineTimer diff ∨ s.mineOwner .north = none ∧ s.mineOwner .south = none) ∧
        ∀ n, (s.nodes n).state = .assaulted → (s.nodes n).tower = true → diff < (s.nodes n).timer
    | _ => True

/-! ### The numbers of the banners -/

theorem node_of_object (owner : Option Team) (state : PointState) (hn : owner = none → n = 3)
    (h : getObjectThroughNode n owner state = some o) :
    o ≤ 44 ∧ getNodeThroughObject o = some n := by
  have hall : ∀ (team : Team) (state : PointState), ∀ n : Node,
      ∀ o ∈ getObjectThroughNode n (some team) state, o ≤ 44 ∧ getNodeThroughObject o = some n := by
    intro team state
    cases team <;> cases state <;> decide
  cases owner with
  | some team => exact hall team state n o h
  | none =>
    obtain rfl : 44 = o := some.inj h
    rw [hn rfl]
    exact ⟨le_rfl, rfl⟩

variable {state : PointState}

theorem object_taken {state' : PointState}
    (hstate : state = .controled ∧ state' = .assaulted ∨ state = .assaulted ∧ state' = .controled)
    (h : getObjectThroughNode n (some team.other) state = some o) :
    getObjectThroughNode n (some team) state' =
      some (if team = .alliance then o - 22 else o + 22) := by
  have hall : ∀ n : Node, ∀ o ∈ getObjectThroughNode n (some team.other) state,
      getObjectThroughNode n (some team) state' =
        some (if team = .alliance then o - 22 else o + 22) := by
    obtain ⟨rfl, rfl⟩ | ⟨rfl, rfl⟩ := hstate <;> cases team <;> decide
  exact hall n o h

theorem object_kept (hn : ¬7 ≤ n.val) (h : getObjectThroughNode n (some team) .assaulted = some o) :
    getObjectThroughNode n (some team) .controled =
      some (if team = .alliance then o - 11 else o + 11) := by
  have hall : ∀ n : Node, ¬7 ≤ n.val → ∀ o ∈ getObjectThroughNode n (some team) .assaulted,
      getObjectThroughNode n (some team) .controled =
        some (if team = .alliance then o - 11 else o + 11) := by
    cases team <;> decide
  exact hall n hn o h

theorem owner_of_object {owner : Option Team} (h : getObjectThroughNode n owner state = some o) :
    owner = if o ≤ 21 then some .alliance else if o ≤ 43 then some .horde else none := by
  have hall : ∀ (team : Team) (state : PointState), ∀ n : Node,
      ∀ o ∈ getObjectThroughNode n (some team) state,
        some team = if o ≤ 21 then some .alliance else if o ≤ 43 then some .horde else none := by
    intro team state
    cases team <;> cases state <;> decide
  cases owner with
  | some team => exact hall team state n o h
  | none =>
    obtain rfl : 44 = o := some.inj h
    rfl

theorem node_of_banner (h : o ≤ 44) : ∃ n, getNodeThroughObject o = some n := by
  have hall : ∀ o < 45, (getNodeThroughObject o).isSome = true := by decide
  exact isSome_iff_exists.mp (hall o (Nat.lt_succ_of_le h))

/-! ### The order of the nodes -/

/-- The five fields of a node, and its banner. -/
structure NodeOk (n : Node) (i : NodeInfo) : Prop where
  tower : i.tower = decide (7 ≤ n.val)
  known : i.state ≠ .neutral ∧ i.prevState ≠ .neutral
  controled : i.state = .controled → i.totalOwner = i.owner
  assaulted : i.state = .assaulted → i.owner ≠ none ∧ i.owner ≠ i.totalOwner ∧
    (i.totalOwner ≠ none → i.prevOwner = i.totalOwner)
  destroyed : i.state = .destroyed → i.tower = true ∧ i.owner ≠ none
  unowned : i.totalOwner = none → n = 3
  shown : i.state ≠ .destroyed → ∃ o, getObjectThroughNode n i.owner i.state = some o

def BannersOk (spawned : ℕ → Bool) (nodes : Node → NodeInfo) : Prop :=
  ∀ o ≤ 44, ∀ n, getNodeThroughObject o = some n →
    (spawned o = true ↔ getObjectThroughNode n (nodes n).owner (nodes n).state = some o)

structure Inv (s : State) : Prop where
  asserted : s.failed = false
  node : ∀ n, NodeOk n (s.nodes n)
  banners : BannersOk s.spawned s.nodes

theorem NodeOk.neutral (h : NodeOk n i) (ho : i.owner = none) : n = 3 ∧ i.state = .controled := by
  have hstate : i.state = .controled := by
    cases hs : i.state with
    | neutral => exact absurd hs h.known.1
    | assaulted => exact absurd ho (h.assaulted hs).1
    | destroyed => exact absurd ho (h.destroyed hs).2
    | controled => rfl
  exact ⟨h.unowned ((h.controled hstate).trans ho), hstate⟩

theorem NodeOk.node_of_object (h : NodeOk n i)
    (ho : getObjectThroughNode n i.owner i.state = some o) :
    o ≤ 44 ∧ getNodeThroughObject o = some n :=
  AlteracValley.node_of_object i.owner i.state (fun hnone => (h.neutral hnone).1) ho

theorem Inv.nodesKept (h : Inv s) : NodesKept s := by
  refine ⟨h.asserted, fun n hn => ?_⟩
  have hstate : (s.nodes n).state ≠ .destroyed := fun hd => hn ⟨((h.node n).destroyed hd).1, hd⟩
  obtain ⟨o, ho⟩ := (h.node n).shown hstate
  obtain ⟨hle, hnode⟩ := (h.node n).node_of_object ho
  refine ⟨o, hle, ho, hnode, fun o' hle' hnode' => ?_⟩
  rw [h.banners o' hle' n hnode', ho]
  exact ⟨fun heq => (some.inj heq).symm, fun heq => congrArg some heq.symm⟩

variable {sp : ℕ → Bool}

/-- **One banner for another.**  The banner `o` of the node goes and that of its new info
comes, if there is one. -/
theorem BannersOk.replace {sp' : ℕ → Bool} {nodes nodes' : Node → NodeInfo} {new : Option ℕ}
    (h : BannersOk sp nodes) (ho : getObjectThroughNode n (nodes n).owner (nodes n).state = some o)
    (hnode : getNodeThroughObject o = some n)
    (hnode' : ∀ x, new = some x → getNodeThroughObject x = some n)
    (hnew : getObjectThroughNode n i'.owner i'.state = new)
    (hsp : ∀ x, sp' x = if new = some x then true else if x = o then false else sp x)
    (hnodes : ∀ m, nodes' m = if m = n then i' else nodes m) : BannersOk sp' nodes' := by
  intro x hx m hm
  rw [hsp, hnodes]
  by_cases hxnew : new = some x
  · have hmn : m = n := some.inj (hm.symm.trans (hnode' x hxnew))
    rw [if_pos hxnew, if_pos hmn, hmn, hnew]
    exact ⟨fun _ => hxnew, fun _ => rfl⟩
  rw [if_neg hxnew]
  by_cases hxo : x = o
  · have hmn : m = n := some.inj (hm.symm.trans (hxo ▸ hnode))
    rw [if_pos hxo, if_pos hmn, hmn, hnew]
    exact ⟨fun hf => absurd hf (by decide), fun heq => absurd heq hxnew⟩
  rw [if_neg hxo]
  by_cases hmn : m = n
  · rw [if_pos hmn, hmn, hnew, h x hx n (hmn ▸ hm), ho]
    exact ⟨fun heq => absurd (some.inj heq).symm hxo, fun heq => absurd heq hxnew⟩
  rw [if_neg hmn]
  exact h x hx m hm

theorem BannersOk.congr {nodes nodes' : Node → NodeInfo} (h : BannersOk sp nodes)
    (hnodes : ∀ m, (nodes' m).owner = (nodes m).owner ∧ (nodes' m).state = (nodes m).state) :
    BannersOk sp nodes' := by
  intro x hx m hm
  rw [(hnodes m).1, (hnodes m).2]
  exact h x hx m hm

/-! ### Assault, defence and destruction -/

theorem isSome_getWorldStateType (h : state ≠ .neutral) (team : Team) :
    (getWorldStateType state (some team)).isSome = true := by
  cases team <;> cases state <;> first | rfl | exact absurd rfl h

theorem worldStates_of_owner (hs : i.state ≠ .neutral) (hp : i.prevState ≠ .neutral)
    (ho : i.owner ≠ none) : i.worldStates = true := by
  unfold NodeInfo.worldStates
  obtain ⟨team, hteam⟩ := ne_none_iff_exists'.mp ho
  rw [hteam, isSome_getWorldStateType hs, Bool.true_and, Bool.or_eq_true]
  cases hprev : i.prevOwner with
  | none => exact .inl rfl
  | some prev => exact .inr (isSome_getWorldStateType hp prev)

/-- With two teams, one that is neither the owner nor the total owner finds no node that
is contested between them. -/
theorem NodeOk.not_contested (h : NodeOk n i) (ho : i.owner ≠ some team)
    (ht : i.totalOwner ≠ some team) (hs : i.state = .assaulted) : i.totalOwner = none := by
  obtain ⟨hsome, hne, -⟩ := h.assaulted hs
  cases htotal : i.totalOwner with
  | none => rfl
  | some total =>
    obtain ⟨owner, howner⟩ := ne_none_iff_exists'.mp hsome
    cases owner <;> cases total <;> cases team <;> simp_all

/-- `AssaultNode` passes its assertions, and the node is in order if its banner is one. -/
theorem NodeOk.assaultNode (h : NodeOk n i) (ho : i.owner ≠ some team)
    (ht : i.totalOwner ≠ some team) (hs : i.state ≠ .destroyed)
    (hshown : getObjectThroughNode n (some team) .assaulted = some o') :
    ∃ i', i.assaultNode team = some i' ∧ i'.owner = some team ∧ i'.state = .assaulted ∧
      NodeOk n i' ∧ i'.worldStates = true := by
  have hcontested : ¬(i.state = .assaulted ∧ i.totalOwner ≠ none) :=
    fun hc => hc.2 (h.not_contested ho ht hc.1)
  refine ⟨{ i with
      timer := if i.prevOwner ≠ none then captime else snowfallFirstcap
      prevOwner := i.owner
      owner := some team
      prevState := i.state
      state := .assaulted }, ?_, rfl, rfl, ⟨h.tower, ⟨by simp, h.known.1⟩, by simp, fun _ => ?_,
    by simp, h.unowned, fun _ => ⟨o', hshown⟩⟩, worldStates_of_owner (by simp) h.known.1 (by simp)⟩
  · unfold NodeInfo.assaultNode
    rw [if_neg ht, if_neg ho, if_neg hs, if_neg hcontested]
  refine ⟨by simp, fun heq => ht heq.symm, fun htotal => ?_⟩
  -- the node was controlled, by its total owner
  cases hstate : i.state with
  | neutral => exact absurd hstate h.known.1
  | assaulted => exact absurd ⟨hstate, htotal⟩ hcontested
  | destroyed => exact absurd hstate hs
  | controled => exact (h.controled hstate).symm

theorem NodeOk.defendNode (h : NodeOk n i) (ho : i.owner ≠ some team)
    (ht : i.totalOwner = some team) (hs : i.state = .assaulted)
    (hshown : getObjectThroughNode n (some team) .controled = some o') :
    ∃ i', i.defendNode team = some i' ∧ i'.owner = some team ∧ i'.state = .controled ∧
      NodeOk n i' ∧ i'.worldStates = true := by
  refine ⟨{ i with
      prevOwner := i.owner
      owner := some team
      prevState := i.state
      state := .controled
      timer := 0 }, ?_, rfl, rfl, ⟨h.tower, ⟨by simp, h.known.1⟩, fun _ => ht, by simp, by simp,
    h.unowned, fun _ => ⟨o', hshown⟩⟩, worldStates_of_owner (by simp) h.known.1 (by simp)⟩
  unfold NodeInfo.defendNode
  rw [if_neg (not_not_intro ht), if_neg ho, if_neg (by simp [hs])]

/-- `DestroyNode` passes its assertion.  A tower is destroyed, a graveyard is kept. -/
theorem NodeOk.destroyNode (h : NodeOk n i) (hs : i.state = .assaulted)
    (hshown : ¬7 ≤ n.val → getObjectThroughNode n i.owner .controled = some o') :
    ∃ i', i.destroyNode = some i' ∧ i'.owner = i.owner ∧ i'.tower = i.tower ∧
      i'.state = (if i.tower then .destroyed else .controled) ∧
      NodeOk n i' ∧ i'.worldStates = true := by
  have howner := (h.assaulted hs).1
  have hstate : (if i.tower = true then PointState.destroyed else .controled) ≠ .neutral := by
    split <;> simp
  refine ⟨{ i with
      totalOwner := i.owner
      prevOwner := i.owner
      prevState := i.state
      state := if i.tower then .destroyed else .controled
      timer := 0 }, ?_, rfl, rfl, rfl, ⟨h.tower, ⟨hstate, h.known.1⟩, fun _ => rfl, fun hc => ?_,
    fun hd => ⟨?_, howner⟩, fun hnone => absurd hnone howner, fun hd => ?_⟩,
    worldStates_of_owner hstate h.known.1 howner⟩
  · unfold NodeInfo.destroyNode
    rw [if_neg (not_not_intro hs)]
  · dsimp only at hc
    split at hc <;> exact absurd hc (by simp)
  · dsimp only at hd ⊢
    by_contra hne
    rw [if_neg hne] at hd
    exact absurd hd (by simp)
  dsimp only at hd ⊢
  have htower : ¬i.tower = true := fun ht => hd (by rw [if_pos ht])
  rw [if_neg htower]
  refine ⟨o', hshown fun h7 => htower ?_⟩
  rw [h.tower]
  exact decide_eq_true h7

variable {s' : State}

theorem Inv.congr (h : Inv s) (hf : s'.failed = s.failed) (hn : s'.nodes = s.nodes)
    (hb : s'.spawned = s.spawned) : Inv s' := by
  refine ⟨hf.trans h.asserted, fun n => ?_, ?_⟩
  · rw [hn]
    exact h.node n
  rw [hn, hb]
  exact h.banners

theorem updateScore_fields (s : State) (team : Team) (points : ℤ) :
    (s.updateScore team points).failed = s.failed ∧ (s.updateScore team points).nodes = s.nodes ∧
      (s.updateScore team points).spawned = s.spawned := by
  unfold updateScore
  dsimp only
  split <;> exact ⟨rfl, rfl, rfl⟩

theorem Inv.updateScore (h : Inv s) (team : Team) (points : ℤ) :
    Inv (s.updateScore team points) := by
  obtain ⟨hf, hn, hb⟩ := updateScore_fields s team points
  exact h.congr hf hn hb

theorem Inv.changeMineOwner (h : Inv s) (mine : Mine) (team : Option Team) :
    Inv (s.changeMineOwner mine team) := by
  unfold State.changeMineOwner
  split
  · exact h
  · exact h.congr rfl rfl rfl

theorem nodeOk_setNode (h : ∀ m, NodeOk m (s.nodes m)) (hi : NodeOk n i') (m : Node) :
    NodeOk m ((s.setNode n i').nodes m) := by
  show NodeOk m (if m = n then i' else s.nodes m)
  by_cases hm : m = n
  · rw [if_pos hm, hm]
    exact hi
  rw [if_neg hm]
  exact h m

theorem updateNodeWorldState_setNode (hi : i'.worldStates = true) :
    (s.setNode n i').updateNodeWorldState n = s.setNode n i' := by
  unfold updateNodeWorldState
  have hnode : (s.setNode n i').nodes n = i' := if_pos rfl
  rw [hnode, if_pos hi]

theorem NodeOk.not_destroyed (h : NodeOk n i)
    (ho : getObjectThroughNode n i.owner i.state = some o) : i.state ≠ .destroyed := by
  intro hd
  obtain ⟨team, hteam⟩ := ne_none_iff_exists'.mp (h.destroyed hd).2
  rw [hd, hteam] at ho
  cases team <;> exact absurd ho (by simp [getObjectThroughNode])

/-- **A new owner, a new banner**: the order is kept by writing a node in order and
putting its banner in the place of the old one. -/
theorem Inv.replace (h : Inv s) (ho : getObjectThroughNode n (s.nodes n).owner (s.nodes n).state = some o)
    (hi : NodeOk n i') (ho' : getObjectThroughNode n i'.owner i'.state = some o')
    (hne : o' ≠ o) : Inv (((s.spawnBGObject o' true).spawnBGObject o false).setNode n i') := by
  refine ⟨h.asserted, nodeOk_setNode (s := (s.spawnBGObject o' true).spawnBGObject o false)
    h.node hi, ?_⟩
  refine h.banners.replace ho ((h.node n).node_of_object ho).2
    (fun x hx => some.inj hx ▸ (hi.node_of_object ho').2) ho' (fun x => ?_) fun _ => rfl
  show (if x = o then false else if x = o' then true else s.spawned x) = _
  by_cases hx : x = o'
  · simp [hx, hne]
  · simp [hx, Ne.symm hx]

theorem NodeOk.assault_banner (h : NodeOk n i)
    (hobj : getObjectThroughNode n i.owner i.state = some o) (ho : i.owner ≠ some team)
    (ht : i.totalOwner ≠ some team) :
    ∃ o', getObjectThroughNode n (some team) .assaulted = some o' ∧ ∀ s : State,
      (let s := if n = snowfallGrave ∧ o = 44 then
          s.spawnBGObject (if team = .alliance then 14 else 25) true
        else if n = snowfallGrave ∧ i.totalOwner = none then
          s.spawnBGObject (if team = .alliance then o - 11 else o + 11) true
        else s
      if i.totalOwner ≠ none then
        s.spawnBGObject (if team = .alliance then o - 22 else o + 22) true else s) =
        s.spawnBGObject o' true := by
  cases htotal : i.totalOwner with
  | none =>
    obtain rfl : n = 3 := h.unowned htotal
    cases howner : i.owner with
    | none =>
      rw [howner] at hobj
      obtain rfl : 44 = o := some.inj hobj
      refine ⟨if team = .alliance then 14 else 25, ?_, fun s => ?_⟩
      · cases team <;> rfl
      · simp [snowfallGrave]
    | some t =>
      have hstate : i.state = .assaulted := by
        cases hs : i.state with
        | neutral => exact absurd hs h.known.1
        | assaulted => rfl
        | destroyed => exact absurd hs (h.not_destroyed hobj)
        | controled =>
          have := (h.controled hs).symm.trans htotal
          exact absurd (howner.symm.trans this) (by simp)
      rw [howner, hstate] at hobj
      refine ⟨if team = .alliance then o - 11 else o + 11, ?_, fun s => ?_⟩
      · cases t <;> cases team
        · exact absurd howner ho
        · obtain rfl : 14 = o := some.inj hobj
          rfl
        · obtain rfl : 25 = o := some.inj hobj
          rfl
        · exact absurd howner ho
      have h44 : o ≠ 44 := by
        rintro rfl
        cases t <;> exact absurd hobj (by decide)
      simp [snowfallGrave, h44]
  | some total =>
    have hstate : i.state = .controled := by
      cases hs : i.state with
      | neutral => exact absurd hs h.known.1
      | assaulted => exact absurd ((h.not_contested ho ht hs).symm.trans htotal) (by simp)
      | destroyed => exact absurd hs (h.not_destroyed hobj)
      | controled => rfl
    have howner : i.owner = some total := (h.controled hstate).symm.trans htotal
    have h44 : o ≠ 44 := by
      rintro rfl
      have := owner_of_object hobj
      rw [howner] at this
      exact absurd this (by simp)
    rw [howner, hstate] at hobj
    rw [howner] at ho
    refine ⟨if team = .alliance then o - 22 else o + 22, ?_, fun s => ?_⟩
    · cases total <;> cases team
      · exact absurd rfl ho
      · exact object_taken (.inl ⟨rfl, rfl⟩) hobj
      · exact object_taken (.inl ⟨rfl, rfl⟩) hobj
      · exact absurd rfl ho
    · simp [h44]

/-- **A click of an attacker keeps the order.** -/
theorem Inv.eventPlayerAssaultsPoint (h : Inv s) (team : Team) (hle : o ≤ 44)
    (hsp : s.spawned o = true) : Inv (s.eventPlayerAssaultsPoint team o) := by
  obtain ⟨n, hn⟩ := node_of_banner hle
  have hnode := h.node n
  have hobj := (h.banners o hle n hn).mp hsp
  unfold State.eventPlayerAssaultsPoint
  rw [hn]
  dsimp only
  by_cases hown : (s.nodes n).owner = some team ∨ (s.nodes n).totalOwner = some team
  · rw [if_pos hown]
    exact h
  rw [if_neg hown]
  obtain ⟨ho, ht⟩ := not_or.mp hown
  by_cases hfirst : n = snowfallGrave ∧ o = 44 ∧
      ¬((s.nodes n).owner = none ∧ (s.nodes n).totalOwner = none)
  · rw [if_pos hfirst]
    exact h
  rw [if_neg hfirst]
  by_cases hagain : n = snowfallGrave ∧ o ≠ 44 ∧ (s.nodes n).totalOwner = none ∧
      (s.nodes n).state = .controled
  · rw [if_pos hagain]
    exact h
  rw [if_neg hagain]
  have howned : ¬((s.nodes n).totalOwner ≠ none ∧ (s.nodes n).owner = none) := by
    rintro ⟨htotal, hnone⟩
    exact htotal ((hnode.controled (hnode.neutral hnone).2).trans hnone)
  rw [if_neg howned]
  obtain ⟨o', ho', hspawn⟩ := hnode.assault_banner hobj ho ht
  obtain ⟨i', hassault, howner', hstate', hok, hstates⟩ :=
    hnode.assaultNode ho ht (hnode.not_destroyed hobj) ho'
  rw [hspawn s, hassault]
  dsimp only
  rw [updateNodeWorldState_setNode hstates]
  have hne : o' ≠ o := by
    rintro rfl
    exact ho ((owner_of_object hobj).trans (owner_of_object ho').symm)
  exact h.replace hobj hok (by rw [howner', hstate']; exact ho') hne

theorem NodeOk.defend_banner (hobj : getObjectThroughNode n i.owner i.state = some o)
    (hs : i.state = .assaulted) (howner : i.owner = some team.other) :
    getObjectThroughNode n (some team) .controled =
      some (if i.owner = some .alliance then o + 22 else o - 22) := by
  rw [howner, hs] at hobj
  rw [howner]
  cases team <;> exact object_taken (.inr ⟨rfl, rfl⟩) hobj

/-- **A click of a defender keeps the order.** -/
theorem Inv.eventPlayerDefendsPoint (h : Inv s) (team : Team) (hle : o ≤ 44)
    (hsp : s.spawned o = true) : Inv (s.eventPlayerDefendsPoint team o) := by
  obtain ⟨n, hn⟩ := node_of_banner hle
  have hnode := h.node n
  have hobj := (h.banners o hle n hn).mp hsp
  unfold State.eventPlayerDefendsPoint
  rw [hn]
  dsimp only
  by_cases hown : (s.nodes n).owner = some team ∨ (s.nodes n).state ≠ .assaulted
  · rw [if_pos hown]
    exact h
  rw [if_neg hown]
  obtain ⟨ho, hstate⟩ := not_or.mp hown
  have hs := not_not.mp hstate
  by_cases hunowned : (s.nodes n).totalOwner = none
  · rw [if_pos hunowned, if_pos (show n = snowfallGrave from hnode.unowned hunowned)]
    exact h.eventPlayerAssaultsPoint team hle hsp
  rw [if_neg hunowned]
  obtain ⟨hsome, hcontested, hprev⟩ := hnode.assaulted hs
  by_cases hprevOwner : (s.nodes n).prevOwner ≠ some team
  · rw [if_pos hprevOwner]
    exact h
  rw [if_neg hprevOwner]
  have ht : (s.nodes n).totalOwner = some team :=
    (hprev hunowned).symm.trans (not_not.mp hprevOwner)
  have howner : (s.nodes n).owner = some team.other := by
    obtain ⟨t, hteam⟩ := ne_none_iff_exists'.mp hsome
    rw [hteam] at ho ⊢
    cases t <;> cases team <;> first | rfl | exact absurd rfl ho
  have ho' := NodeOk.defend_banner hobj hs howner
  obtain ⟨i', hdefend, howner', hstate', hok, hstates⟩ := hnode.defendNode ho ht hs ho'
  rw [hdefend]
  dsimp only
  rw [updateNodeWorldState_setNode hstates]
  have hne : (if (s.nodes n).owner = some .alliance then o + 22 else o - 22) ≠ o := by
    intro heq
    rw [heq] at ho'
    exact ho ((owner_of_object hobj).trans (owner_of_object ho').symm)
  exact h.replace hobj hok (by rw [howner', hstate']; exact ho') hne

theorem Inv.click (h : Inv s) (team : Team) (hle : o ≤ 44) (hsp : s.spawned o = true) :
    Inv (s.eventPlayerClickedOnFlag team o) := by
  unfold eventPlayerClickedOnFlag
  split
  · exact h.eventPlayerDefendsPoint team hle hsp
  · exact h.eventPlayerAssaultsPoint team hle hsp

theorem NodeOk.keep_banner (hobj : getObjectThroughNode n i.owner i.state = some o)
    (hs : i.state = .assaulted) (howner : i.owner = some team) (hn : ¬7 ≤ n.val) :
    getObjectThroughNode n (some team) .controled =
      some (if i.owner = some .alliance then o - 11 else o + 11) := by
  rw [howner, hs] at hobj
  rw [howner]
  cases team <;> exact object_kept hn hobj

theorem eventPlayerDestroyedPoint_eq
    (hobj : getObjectThroughNode n (s.nodes n).owner (s.nodes n).state = some o)
    (hdestroy : (s.nodes n).destroyNode = some i') (hstates : i'.worldStates = true) :
    s.eventPlayerDestroyedPoint n =
      let t := (s.spawnBGObject o false).setNode n i'
      if i'.tower then
        t.updateScore (if i'.owner = some .alliance then .horde else .alliance) (-1 * resTower)
      else if i'.owner = some .alliance then t.spawnBGObject (o - 11) true
      else if i'.owner = none then t.fail
      else t.spawnBGObject (o + 11) true := by
  unfold eventPlayerDestroyedPoint
  dsimp only
  rw [hobj]
  rw [hdestroy]
  dsimp only
  rw [updateNodeWorldState_setNode hstates]

/-- **What the end of the defenders' time does**: a tower is destroyed and counted, a
graveyard goes to its new owner. -/
theorem Inv.destroyed_eq (h : Inv s) (hs : (s.nodes n).state = .assaulted) :
    ∃ t : State, Inv t ∧ t.notices = s.notices ∧ t.teamScores = s.teamScores ∧
      t.status = s.status ∧ (∀ m ≠ n, t.nodes m = s.nodes m) ∧
      s.eventPlayerDestroyedPoint n = if (s.nodes n).tower then
        t.updateScore (if (s.nodes n).owner = some .alliance then .horde else .alliance)
          (-1 * resTower) else t := by
  have hnode := h.node n
  obtain ⟨o, hobj⟩ := hnode.shown (by rw [hs]; simp)
  obtain ⟨team, howner⟩ := ne_none_iff_exists'.mp (hnode.assaulted hs).1
  have hcode := (hnode.node_of_object hobj).2
  have hshown (hn : ¬7 ≤ n.val) : getObjectThroughNode n (s.nodes n).owner .controled =
      some (if (s.nodes n).owner = some .alliance then o - 11 else o + 11) := by
    have hkeep := NodeOk.keep_banner hobj hs howner hn
    rwa [← howner] at hkeep
  obtain ⟨i', hdestroy, howner', htower', hstate', hok, hstates⟩ := hnode.destroyNode hs hshown
  have hothers : ∀ m ≠ n, ((s.spawnBGObject o false).setNode n i').nodes m = s.nodes m :=
    fun m hm => if_neg hm
  rw [eventPlayerDestroyedPoint_eq hobj hdestroy hstates, htower', howner']
  by_cases htower : (s.nodes n).tower = true
  · rw [if_pos htower]
    refine ⟨(s.spawnBGObject o false).setNode n i', ⟨h.asserted,
      nodeOk_setNode (s := s.spawnBGObject o false) h.node hok, ?_⟩, rfl, rfl, rfl, hothers,
      (if_pos htower).symm⟩
    have hgone : getObjectThroughNode n i'.owner i'.state = none := by
      rw [hstate', if_pos htower, howner', howner]
      cases team <;> rfl
    exact h.banners.replace hobj hcode (by simp) hgone (fun _ => rfl) fun _ => rfl
  rw [if_neg htower]
  have hn : ¬7 ≤ n.val := by
    rw [hnode.tower] at htower
    exact fun h7 => htower (decide_eq_true h7)
  have hnone : ¬(s.nodes n).owner = none := by rw [howner]; simp
  have ho' := NodeOk.keep_banner hobj hs howner hn
  refine ⟨((s.spawnBGObject o false).setNode n i').spawnBGObject
    (if (s.nodes n).owner = some .alliance then o - 11 else o + 11) true, ⟨h.asserted,
    nodeOk_setNode (s := s.spawnBGObject o false) h.node hok, ?_⟩, rfl, rfl, rfl, hothers, ?_⟩
  · have hkept : getObjectThroughNode n i'.owner i'.state =
        some (if (s.nodes n).owner = some .alliance then o - 11 else o + 11) := by
      rw [hstate', if_neg htower, howner', howner]
      rw [howner] at ho'
      exact ho'
    exact h.banners.replace hobj hcode
      (fun x hx => some.inj hx ▸ (node_of_object _ _ (by simp) ho').2) hkept
      (fun x => if_congr (by rw [some.injEq, eq_comm]) rfl rfl) fun _ => rfl
  rw [if_neg htower]
  by_cases hall : (s.nodes n).owner = some .alliance
  · rw [if_pos hall, if_pos hall]
  · rw [if_neg hall, if_neg hnone, if_neg hall]

/-! ### Updates -/

section

variable (h : Inv s)

include h

theorem Inv.nodeUpdate (diff : ℕ) (n : Node) : Inv (s.nodeUpdate diff n) := by
  unfold State.nodeUpdate
  by_cases hs : (s.nodes n).state = .assaulted
  · rw [if_pos hs]
    by_cases ht : (s.nodes n).timer > diff
    · rw [if_pos ht]
      have hok := h.node n
      refine ⟨h.asserted, nodeOk_setNode h.node { hok with }, h.banners.congr fun m => ?_⟩
      show (if m = n then _ else s.nodes m).owner = _ ∧ (if m = n then _ else s.nodes m).state = _
      by_cases hm : m = n
      · rw [if_pos hm, hm]
        exact ⟨rfl, rfl⟩
      rw [if_neg hm]
      exact ⟨rfl, rfl⟩
    rw [if_neg ht]
    obtain ⟨t, hinv, -, -, -, -, heq⟩ := h.destroyed_eq hs
    rw [heq]
    split
    · exact hinv.updateScore _ _
    · exact hinv
  rw [if_neg hs]
  exact h

theorem Inv.foldl_nodeUpdate (diff : ℕ) (l : List Node) :
    Inv (l.foldl (State.nodeUpdate diff) s) := by
  induction l generalizing s with
  | nil => exact h
  | cons n l ih => exact ih (h.nodeUpdate diff n)

theorem Inv.mineTick (team : Team) : Inv (s.mineTick team) := by
  unfold State.mineTick
  split
  · exact h.updateScore team 1
  · exact h

theorem Inv.mineReclaim (diff : ℕ) (mine : Mine) : Inv (s.mineReclaim diff mine) := by
  unfold State.mineReclaim
  split
  · exact h.congr rfl rfl rfl
  · exact h.changeMineOwner mine none

theorem Inv.mineUpdate (diff : ℕ) (mine : Mine) : Inv (s.mineUpdate diff mine) := by
  unfold State.mineUpdate
  split
  · exact h
  · exact (h.mineTick _).mineReclaim diff mine

theorem Inv.minesUpdate (diff : ℕ) : Inv (s.minesUpdate diff) := by
  have htimer : Inv { s with mineTimer := s.nextMineTimer diff } := h.congr rfl rfl rfl
  have hmines := (htimer.mineUpdate diff .north).mineUpdate diff .south
  unfold State.minesUpdate
  dsimp only [List.foldl]
  split
  · exact hmines.congr rfl rfl rfl
  · exact hmines

/-- **No assertion fails and the banners are right**, whatever is requested. -/
theorem Inv.step (r : Request) : Inv (AlteracValley.step s r) := by
  unfold AlteracValley.step
  split
  · exact h
  cases r with
  | click team object =>
    show Inv (if object ≤ 44 ∧ s.spawned object = true then _ else s)
    split
    · rename_i hclick
      exact h.click team hclick.1 hclick.2
    · exact h
  | postUpdate diff => exact (h.minesUpdate diff).foldl_nodeUpdate diff _
  | killPlayer team => exact h.updateScore team (-1)
  | killGeneral team => exact h.congr rfl rfl rfl
  | killCaptain team =>
    show Inv (s.killCaptain team)
    unfold killCaptain
    split
    · refine Inv.updateScore ?_ team _
      exact h.congr rfl rfl rfl
    · exact h
  | killMineBoss mine killer => exact h.changeMineOwner mine (some killer)

end

theorem inv_start : Inv start := by
  refine ⟨rfl, fun n => ?_, ?_⟩
  · have hall : ∀ n : Node, (firstNode n).tower = decide (7 ≤ n.val) ∧
        (firstNode n).state = .controled ∧ (firstNode n).prevState = .controled ∧
        (firstNode n).totalOwner = (firstNode n).owner ∧
        ((firstNode n).totalOwner = none → n = 3) ∧
        (getObjectThroughNode n (firstNode n).owner (firstNode n).state).isSome = true := by
      decide
    obtain ⟨htower, hstate, hprev, htotal, hunowned, hshown⟩ := hall n
    exact ⟨htower, ⟨by rw [show (start.nodes n).state = _ from hstate]; simp,
      by rw [show (start.nodes n).prevState = _ from hprev]; simp⟩, fun _ => htotal,
      fun hs => absurd (hs.symm.trans hstate) (by simp),
      fun hs => absurd (hs.symm.trans hstate) (by simp), hunowned,
      fun _ => isSome_iff_exists.mp hshown⟩
  have hall : ∀ o < 45, ∀ n : Node, getNodeThroughObject o = some n → (start.spawned o = true ↔
        getObjectThroughNode n (firstNode n).owner (firstNode n).state = some o) := by
    decide +kernel
  exact fun o ho n hn => hall o (Nat.lt_succ_of_le ho) n hn

/-! ### The reinforcements -/

/-- Something that was made known is wrong. -/
def Wrong (s : State) : Prop := ∃ e ∈ s.notices, ¬e.Right

theorem Wrong.mono (h : Wrong s) (hsub : s.notices ⊆ s'.notices) : Wrong s' := by
  obtain ⟨e, he, hwrong⟩ := h
  exact ⟨e, hsub he, hwrong⟩

theorem Scores.of_set_other (sc : Scores) (team : Team) (k : ℤ) :
    (sc.set team.other k).of team = sc.of team := by
  cases team <;> rfl

/-- **`UpdateScore` moves the wrong score**: the team it is called for keeps its own. -/
theorem wrong_updateScore (s : State) (team : Team) {points : ℤ} (hp : points ≠ 0) :
    Wrong (s.updateScore team points) := by
  have hentry : ∀ k, ¬(Notice.score team points s.teamScores
      (s.teamScores.set team.other k)).Right := by
    rintro k ⟨hlower, hraise, -⟩
    rw [Scores.of_set_other] at hlower hraise
    rcases Int.lt_or_gt_of_ne hp with hneg | hpos
    · exact Int.lt_irrefl _ (hlower hneg)
    · exact Int.lt_irrefl _ (hraise hpos)
  unfold updateScore
  dsimp only
  split
  · exact ⟨_, mem_append_left _ (mem_append_right _ (mem_singleton_self _)), hentry 0⟩
  · exact ⟨_, mem_append_right _ (mem_singleton_self _), hentry _⟩

theorem notices_updateScore (s : State) (team : Team) (points : ℤ) :
    s.notices ⊆ (s.updateScore team points).notices := by
  unfold updateScore
  dsimp only
  split
  · exact fun e he => mem_append_left _ (mem_append_left _ he)
  · exact fun e he => mem_append_left _ he

/-- While the match is in progress its end has not been made known. -/
def EndOk (s : State) : Prop :=
  s.status = .inProgress → s.notices.countP Notice.isEnded = 0

theorem EndOk.updateScore (h : EndOk s) (team : Team) (points : ℤ) :
    EndOk (s.updateScore team points) := by
  unfold State.updateScore
  dsimp only
  split
  · exact fun hs => absurd hs (by simp [endBattleground])
  intro hs
  show (s.notices ++ [_]).countP _ = 0
  rw [countP_append, h hs]
  rfl

theorem EndOk.congr (h : EndOk s) (hs : s'.status = s.status)
    (hn : s'.notices = s.notices) : EndOk s' := by
  unfold EndOk
  rw [hs, hn]
  exact h

theorem changeMineOwner_fields (s : State) (mine : Mine) (team : Option Team) :
    (s.changeMineOwner mine team).status = s.status ∧
      (s.changeMineOwner mine team).notices = s.notices ∧
      (s.changeMineOwner mine team).nodes = s.nodes ∧
      (s.changeMineOwner mine team).mineTimer = s.mineTimer ∧
      ∀ m ≠ mine, (s.changeMineOwner mine team).mineOwner m = s.mineOwner m := by
  unfold changeMineOwner
  split
  · exact ⟨rfl, rfl, rfl, rfl, fun _ _ => rfl⟩
  · exact ⟨rfl, rfl, rfl, rfl, fun m hm => if_neg hm⟩

theorem mineReclaim_fields (s : State) (diff : ℕ) (mine : Mine) :
    (s.mineReclaim diff mine).status = s.status ∧ (s.mineReclaim diff mine).notices = s.notices ∧
      (s.mineReclaim diff mine).nodes = s.nodes ∧
      (s.mineReclaim diff mine).mineTimer = s.mineTimer ∧
      ∀ m ≠ mine, (s.mineReclaim diff mine).mineOwner m = s.mineOwner m := by
  unfold mineReclaim
  split
  · exact ⟨rfl, rfl, rfl, rfl, fun _ _ => rfl⟩
  · exact changeMineOwner_fields s mine none

theorem updateScore_mines (s : State) (team : Team) (points : ℤ) :
    (s.updateScore team points).mineTimer = s.mineTimer ∧
      (s.updateScore team points).mineOwner = s.mineOwner := by
  unfold updateScore
  dsimp only
  split <;> exact ⟨rfl, rfl⟩

theorem mineUpdate_fields (s : State) (diff : ℕ) (mine : Mine) :
    s.notices ⊆ (s.mineUpdate diff mine).notices ∧ (s.mineUpdate diff mine).nodes = s.nodes ∧
      (s.mineUpdate diff mine).mineTimer = s.mineTimer ∧
      ∀ m ≠ mine, (s.mineUpdate diff mine).mineOwner m = s.mineOwner m := by
  unfold mineUpdate
  split
  · exact ⟨fun _ he => he, rfl, rfl, fun _ _ => rfl⟩
  rename_i team _
  obtain ⟨-, hnotices, hnodes, htimer, howner⟩ :=
    mineReclaim_fields (s.mineTick team) diff mine
  rw [hnotices, hnodes, htimer]
  have htick : s.notices ⊆ (s.mineTick team).notices ∧
      (s.mineTick team).nodes = s.nodes ∧ (s.mineTick team).mineTimer = s.mineTimer ∧
      (s.mineTick team).mineOwner = s.mineOwner := by
    unfold mineTick
    split
    · exact ⟨notices_updateScore s team 1, (updateScore_fields s team 1).2.1,
        updateScore_mines s team 1⟩
    · exact ⟨fun _ he => he, rfl, rfl, rfl⟩
  exact ⟨htick.1, htick.2.1, htick.2.2.1, fun m hm =>
    (howner m hm).trans (congrFun htick.2.2.2 m)⟩

theorem EndOk.mineUpdate (h : EndOk s) (diff : ℕ) (mine : Mine) :
    EndOk (s.mineUpdate diff mine) := by
  unfold State.mineUpdate
  split
  · exact h
  rename_i team _
  have htick : EndOk (s.mineTick team) := by
    unfold mineTick
    split
    · exact h.updateScore team 1
    · exact h
  obtain ⟨hs, hn, -, -, -⟩ := mineReclaim_fields (s.mineTick team) diff mine
  exact htick.congr hs hn

theorem wrong_mineUpdate {mine : Mine} (howner : s.mineOwner mine ≠ none)
    (htimer : s.mineTimer ≤ 0) (diff : ℕ) : Wrong (s.mineUpdate diff mine) := by
  obtain ⟨team, hteam⟩ := ne_none_iff_exists'.mp howner
  unfold mineUpdate
  rw [hteam]
  have htick : s.mineTick team = s.updateScore team 1 := if_pos htimer
  dsimp only
  rw [htick]
  refine (wrong_updateScore s team (by decide : (1 : ℤ) ≠ 0)).mono ?_
  rw [(mineReclaim_fields _ diff mine).2.1]
  exact fun _ he => he

theorem quiet_mineUpdate (mine : Mine) (h : 0 < s.mineTimer ∨ s.mineOwner mine = none)
    (diff : ℕ) : (s.mineUpdate diff mine).notices = s.notices ∧
      (s.mineUpdate diff mine).status = s.status := by
  unfold mineUpdate
  split
  · exact ⟨rfl, rfl⟩
  rename_i team hteam
  rcases h with htimer | hnone
  · have htick : s.mineTick team = s := if_neg (Int.not_le.mpr htimer)
    rw [htick]
    exact ⟨(mineReclaim_fields s diff mine).2.1, (mineReclaim_fields s diff mine).1⟩
  · exact absurd (hnone.symm.trans hteam) (by simp)

/-- Both mines, before the timer is set again. -/
def bothMines (s : State) (diff : ℕ) : State :=
  State.mineUpdate diff (State.mineUpdate diff { s with mineTimer := s.nextMineTimer diff } .north)
    .south

theorem minesUpdate_fields (s : State) (diff : ℕ) :
    (s.minesUpdate diff).notices = (bothMines s diff).notices ∧
      (s.minesUpdate diff).status = (bothMines s diff).status ∧
      (s.minesUpdate diff).nodes = s.nodes := by
  have hnodes : (bothMines s diff).nodes = s.nodes :=
    (mineUpdate_fields _ diff .south).2.1.trans (mineUpdate_fields _ diff .north).2.1
  have hcase : s.minesUpdate diff = bothMines s diff ∨
      s.minesUpdate diff = { bothMines s diff with mineTimer := mineTickTimer } := by
    by_cases htimer : (bothMines s diff).mineTimer ≤ 0
    · exact .inr (if_pos htimer)
    · exact .inl (if_neg htimer)
  rcases hcase with heq | heq
  all_goals
    rw [heq]
    exact ⟨rfl, rfl, hnodes⟩

theorem EndOk.minesUpdate (h : EndOk s) (diff : ℕ) : EndOk (s.minesUpdate diff) := by
  have htimer : EndOk { s with mineTimer := s.nextMineTimer diff } := h.congr rfl rfl
  obtain ⟨hnotices, hstatus, -⟩ := minesUpdate_fields s diff
  exact ((htimer.mineUpdate diff .north).mineUpdate diff .south).congr hstatus hnotices

variable {diff : ℕ}

theorem wrong_minesUpdate (htimer : s.nextMineTimer diff ≤ 0)
    (howner : ¬(s.mineOwner .north = none ∧ s.mineOwner .south = none)) :
    Wrong (s.minesUpdate diff) := by
  set t : State := { s with mineTimer := s.nextMineTimer diff } with ht
  have hboth : Wrong (bothMines s diff) := by
    by_cases hnorth : t.mineOwner .north = none
    · have hsouth : t.mineOwner .south ≠ none := fun hs => howner ⟨hnorth, hs⟩
      obtain ⟨-, -, htime, hother⟩ := mineUpdate_fields t diff .north
      refine wrong_mineUpdate ?_ ?_ diff
      · rw [hother .south (by simp)]
        exact hsouth
      rw [htime]
      exact htimer
    · exact (wrong_mineUpdate (s := t) hnorth htimer diff).mono (mineUpdate_fields _ diff .south).1
  refine hboth.mono ?_
  rw [(minesUpdate_fields s diff).1]
  exact fun _ he => he

theorem quiet_minesUpdate (h : 0 < s.nextMineTimer diff ∨
    s.mineOwner .north = none ∧ s.mineOwner .south = none) :
    (s.minesUpdate diff).notices = s.notices ∧ (s.minesUpdate diff).status = s.status := by
  set t : State := { s with mineTimer := s.nextMineTimer diff } with ht
  have hnorth := quiet_mineUpdate (s := t) .north (h.imp id fun hnone => hnone.1) diff
  have hsouth := quiet_mineUpdate (s := t.mineUpdate diff .north) .south (by
    obtain ⟨-, -, htime, hother⟩ := mineUpdate_fields t diff .north
    rw [htime, hother .south (by simp)]
    exact h.imp id fun hnone => hnone.2) diff
  obtain ⟨hnotices, hstatus, -⟩ := minesUpdate_fields s diff
  exact ⟨hnotices.trans (hsouth.1.trans hnorth.1), hstatus.trans (hsouth.2.trans hnorth.2)⟩

theorem Inv.nodeUpdate_fields (h : Inv s) (diff : ℕ) (n : Node) :
    s.notices ⊆ (s.nodeUpdate diff n).notices ∧
      (∀ m ≠ n, (s.nodeUpdate diff n).nodes m = s.nodes m) ∧
      (EndOk s → EndOk (s.nodeUpdate diff n)) := by
  unfold State.nodeUpdate
  by_cases hs : (s.nodes n).state = .assaulted
  · rw [if_pos hs]
    by_cases ht : (s.nodes n).timer > diff
    · rw [if_pos ht]
      exact ⟨fun _ he => he, fun m hm => if_neg hm, fun hend => hend.congr rfl rfl⟩
    rw [if_neg ht]
    obtain ⟨t, -, hnotices, -, hstatus, hnodes, heq⟩ := h.destroyed_eq hs
    rw [heq]
    split
    · refine ⟨hnotices ▸ notices_updateScore t _ _, fun m hm => ?_, fun hend =>
        (hend.congr hstatus hnotices).updateScore _ _⟩
      rw [(updateScore_fields t _ _).2.1]
      exact hnodes m hm
    · exact ⟨fun _ he => hnotices ▸ he, hnodes, fun hend => hend.congr hstatus hnotices⟩
  rw [if_neg hs]
  exact ⟨fun _ he => he, fun _ _ => rfl, fun hend => hend⟩

theorem Inv.wrong_nodeUpdate (h : Inv s) (hs : (s.nodes n).state = .assaulted)
    (htower : (s.nodes n).tower = true) (ht : ¬diff < (s.nodes n).timer) :
    Wrong (s.nodeUpdate diff n) := by
  unfold State.nodeUpdate
  rw [if_pos hs, if_neg ht]
  obtain ⟨t, -, -, -, -, -, heq⟩ := h.destroyed_eq hs
  rw [heq, if_pos htower]
  exact wrong_updateScore t _ (by decide)

theorem Inv.quiet_nodeUpdate (h : Inv s) (hq : (s.nodes n).state = .assaulted →
    (s.nodes n).tower = true → diff < (s.nodes n).timer) :
    (s.nodeUpdate diff n).notices = s.notices ∧ (s.nodeUpdate diff n).status = s.status := by
  unfold State.nodeUpdate
  by_cases hs : (s.nodes n).state = .assaulted
  · rw [if_pos hs]
    by_cases ht : (s.nodes n).timer > diff
    · rw [if_pos ht]
      exact ⟨rfl, rfl⟩
    rw [if_neg ht]
    obtain ⟨t, -, hnotices, -, hstatus, -, heq⟩ := h.destroyed_eq hs
    rw [heq, if_neg fun htower => ht (hq hs htower)]
    exact ⟨hnotices, hstatus⟩
  rw [if_neg hs]
  exact ⟨rfl, rfl⟩

theorem Inv.foldl_nodeUpdate_fields (h : Inv s) (diff : ℕ) (l : List Node) :
    s.notices ⊆ (l.foldl (State.nodeUpdate diff) s).notices ∧
      (EndOk s → EndOk (l.foldl (State.nodeUpdate diff) s)) := by
  induction l generalizing s with
  | nil => exact ⟨fun _ he => he, fun hend => hend⟩
  | cons n l ih =>
    obtain ⟨hsub, -, hend⟩ := h.nodeUpdate_fields diff n
    obtain ⟨hsub', hend'⟩ := ih (h.nodeUpdate diff n)
    exact ⟨fun _ he => hsub' (hsub he), fun he => hend' (hend he)⟩

variable {l : List Node}

/-- By induction on the nodes still to come: none of them has been touched. -/
theorem Inv.wrong_foldl_nodeUpdate (h : Inv s) (hl : l.Nodup)
    (hn : n ∈ l) (hs : (s.nodes n).state = .assaulted) (htower : (s.nodes n).tower = true)
    (ht : ¬diff < (s.nodes n).timer) : Wrong (l.foldl (State.nodeUpdate diff) s) := by
  induction l generalizing s with
  | nil => exact absurd hn not_mem_nil
  | cons m l ih =>
    rw [nodup_cons] at hl
    have hnext := h.nodeUpdate diff m
    rcases mem_cons.mp hn with rfl | hmem
    · exact (h.wrong_nodeUpdate hs htower ht).mono (hnext.foldl_nodeUpdate_fields diff l).1
    have hne : n ≠ m := fun heq => hl.1 (heq ▸ hmem)
    have hsame := (h.nodeUpdate_fields diff m).2.1 n hne
    exact ih hnext hl.2 hmem (by rw [hsame]; exact hs) (by rw [hsame]; exact htower)
      (by rw [hsame]; exact ht)

theorem Inv.quiet_foldl_nodeUpdate (h : Inv s) (diff : ℕ) (hl : l.Nodup)
    (hq : ∀ n ∈ l, (s.nodes n).state = .assaulted → (s.nodes n).tower = true →
      diff < (s.nodes n).timer) : (l.foldl (State.nodeUpdate diff) s).notices = s.notices ∧
      (l.foldl (State.nodeUpdate diff) s).status = s.status := by
  induction l generalizing s with
  | nil => exact ⟨rfl, rfl⟩
  | cons m l ih =>
    rw [nodup_cons] at hl
    have hfirst := h.quiet_nodeUpdate (hq m mem_cons_self)
    have hrest := ih (h.nodeUpdate diff m) hl.2 fun n hn => by
      have hne : n ≠ m := fun heq => hl.1 (heq ▸ hn)
      rw [(h.nodeUpdate_fields diff m).2.1 n hne]
      exact hq n (mem_cons_of_mem _ hn)
    exact ⟨hrest.1.trans hfirst.1, hrest.2.trans hfirst.2⟩

/-! ### A run -/

/-- The order, and what was made known. -/
structure Kept (s : State) : Prop where
  inv : Inv s
  scores : ScoresKept s
  ended : EndOk s

theorem Kept.endBattleground (h : Kept s) (hs : s.status = .inProgress) (team : Team) :
    ScoresKept (s.endBattleground team.other (some team)) := by
  refine ⟨fun e he => ?_, ?_⟩
  · rcases mem_append.mp he with hold | hnew
    · exact h.scores.right e hold
    rw [mem_singleton.mp hnew]
    cases team <;> exact .inr rfl
  show (s.notices ++ [_]).countP _ ≤ 1
  rw [countP_append, h.ended hs]
  exact Nat.le_refl 1

theorem ScoresKept.not_wrong (h : ScoresKept s) : ¬Wrong s :=
  fun ⟨e, he, hwrong⟩ => hwrong (h.right e he)

theorem ScoresKept.congr (h : ScoresKept s) (hn : s'.notices = s.notices) : ScoresKept s' := by
  refine ⟨?_, ?_⟩
  · rw [hn]
    exact h.right
  rw [hn]
  exact h.once

theorem notices_click (s : State) (team : Team) (o : ℕ) :
    (s.eventPlayerClickedOnFlag team o).notices = s.notices ∧
      (s.eventPlayerClickedOnFlag team o).status = s.status := by
  have hstates : ∀ (t : State) (m : Node), (t.updateNodeWorldState m).notices = t.notices ∧
      (t.updateNodeWorldState m).status = t.status := by
    intro t m
    unfold updateNodeWorldState
    split <;> exact ⟨rfl, rfl⟩
  have hassault : (s.eventPlayerAssaultsPoint team o).notices = s.notices ∧
      (s.eventPlayerAssaultsPoint team o).status = s.status := by
    unfold eventPlayerAssaultsPoint
    split
    · exact ⟨rfl, rfl⟩
    rename_i m _
    dsimp only
    generalize hspawn : (ite ((s.nodes m).totalOwner ≠ none) _ _ : State) = t
    have ht : t.notices = s.notices ∧ t.status = s.status := by
      rw [← hspawn]
      split_ifs <;> exact ⟨rfl, rfl⟩
    split_ifs
    · exact ⟨rfl, rfl⟩
    · exact ⟨rfl, rfl⟩
    · exact ⟨rfl, rfl⟩
    · exact ⟨rfl, rfl⟩
    split
    · exact ht
    · exact ⟨(hstates _ m).1.trans ht.1, (hstates _ m).2.trans ht.2⟩
  unfold eventPlayerClickedOnFlag
  split
  · unfold eventPlayerDefendsPoint
    split
    · exact ⟨rfl, rfl⟩
    rename_i m _
    dsimp only
    split_ifs
    · exact ⟨rfl, rfl⟩
    · exact hassault
    · exact ⟨rfl, rfl⟩
    · exact ⟨rfl, rfl⟩
    all_goals
      split
      · exact ⟨rfl, rfl⟩
      · exact hstates _ m
  · exact hassault

theorem Kept.endOk_step (h : Kept s) (r : Request) : EndOk (step s r) := by
  unfold step
  split
  · exact h.ended
  cases r with
  | click team object =>
    show EndOk (if object ≤ 44 ∧ s.spawned object = true then _ else s)
    split
    · exact h.ended.congr (notices_click s team object).2 (notices_click s team object).1
    · exact h.ended
  | postUpdate diff =>
    exact ((h.inv.minesUpdate diff).foldl_nodeUpdate_fields diff _).2 (h.ended.minesUpdate diff)
  | killPlayer team => exact h.ended.updateScore team (-1)
  | killGeneral team => exact fun hs => absurd hs (by simp [serve, State.endBattleground])
  | killCaptain team =>
    show EndOk (s.killCaptain team)
    unfold killCaptain
    split
    · refine EndOk.updateScore ?_ team _
      exact h.ended.congr rfl rfl
    · exact h.ended
  | killMineBoss mine killer =>
    obtain ⟨hs, hn, -⟩ := changeMineOwner_fields s mine (some killer)
    exact h.ended.congr hs hn

/-- An update is right exactly if no mine ticks for an owner and no tower falls. -/
theorem Kept.postUpdate_iff (h : Kept s) (diff : ℕ) : ScoresKept (s.postUpdateImpl diff) ↔
      (0 < s.nextMineTimer diff ∨ s.mineOwner .north = none ∧ s.mineOwner .south = none) ∧
        ∀ n, (s.nodes n).state = .assaulted → (s.nodes n).tower = true →
          diff < (s.nodes n).timer := by
  have hmines := h.inv.minesUpdate diff
  obtain ⟨-, -, hnodes⟩ := minesUpdate_fields s diff
  constructor
  · intro hkept
    refine ⟨?_, fun n hs htower => ?_⟩
    · by_contra hnot
      obtain ⟨htimer, howner⟩ := not_or.mp hnot
      refine hkept.not_wrong ((wrong_minesUpdate (Int.not_lt.mp htimer) howner).mono ?_)
      exact (hmines.foldl_nodeUpdate_fields diff _).1
    by_contra hnot
    refine hkept.not_wrong (hmines.wrong_foldl_nodeUpdate (n := n) (nodup_finRange 15)
      (mem_finRange n) ?_ ?_ ?_)
    · rw [hnodes]
      exact hs
    · rw [hnodes]
      exact htower
    rw [hnodes]
    exact hnot
  rintro ⟨hmine, hnode⟩
  obtain ⟨hfold, -⟩ := hmines.quiet_foldl_nodeUpdate diff (nodup_finRange 15) fun n _ => by
      rw [hnodes]
      exact hnode n
  exact h.scores.congr (hfold.trans (quiet_minesUpdate hmine).1)

/-- **A step is right exactly if it is quiet.** -/
theorem Kept.step_iff (h : Kept s) (r : Request) : ScoresKept (step s r) ↔ Quiet s r := by
  unfold step Quiet
  have hfailed := h.inv.asserted
  by_cases hs : s.status = .inProgress
  · rw [if_neg (by simp [hfailed, hs])]
    refine Iff.trans ?_ ⟨fun hq _ _ => hq, fun hq => hq hfailed hs⟩
    cases r with
    | click team object =>
      refine iff_of_true ?_ trivial
      show ScoresKept (if object ≤ 44 ∧ s.spawned object = true then _ else s)
      split
      · exact h.scores.congr (notices_click s team object).1
      · exact h.scores
    | postUpdate diff => exact h.postUpdate_iff diff
    | killPlayer team =>
      refine iff_of_false (fun hkept => ?_) not_false
      exact hkept.not_wrong (wrong_updateScore s team (by decide))
    | killGeneral team => exact iff_of_true (h.endBattleground hs team) trivial
    | killCaptain team =>
      show ScoresKept (s.killCaptain team) ↔ _
      unfold killCaptain
      by_cases halive : s.captainAlive team = true
      · rw [if_pos halive]
        refine iff_of_false (fun hkept => ?_) (by simp [halive])
        exact hkept.not_wrong (wrong_updateScore _ team (by decide))
      rw [if_neg halive]
      exact iff_of_true h.scores (by simpa using halive)
    | killMineBoss mine killer =>
      exact iff_of_true (h.scores.congr (changeMineOwner_fields s mine (some killer)).2.1) trivial
  rw [if_pos (.inr hs)]
  exact iff_of_true h.scores fun _ hp => absurd hp hs

theorem kept_start : Kept start :=
  ⟨inv_start, ⟨fun _ he => absurd he not_mem_nil, Nat.zero_le 1⟩, fun _ => rfl⟩

/-- **Alterac Valley.**  In every run of clicks, updates and kills no assertion fails and
every node that is not a destroyed tower has its one banner spawned; and the scores that
are made known are right, and the end of the match comes once at most and for the right
team, exactly in the runs in which no death, captain, tower or mine changes a score. -/
theorem alterac_valley (rs : List Request) : Along step (fun s r => NodesKept (step s r)) start rs ∧
      (Along step (fun s r => ScoresKept (step s r)) start rs ↔ Along step Quiet start rs) := by
  constructor
  · exact Along.of_invariant (I := Inv) (fun _ r hI _ => hI.step r)
      (fun _ r hI _ => (hI.step r).nodesKept) inv_start along_true
  exact Along.iff_of_invariant (I := Kept) (fun _ r hI => hI.step_iff r)
    (fun _ r hI hkept => ⟨hI.inv.step r, hkept, hI.endOk_step r⟩) kept_start

/-- The alliance takes on the four towers of the horde and kills its captain; the horde
loses players until the alliance is left with 150 reinforcements; then the time of the
towers is up. -/
def fourTowers : List Request :=
  [.click .alliance 40, .click .alliance 41, .click .alliance 42, .click .alliance 43,
    .killCaptain .horde] ++ List.replicate 350 (.killPlayer .horde)

/-- **The wrong team loses, again and again.**  The death of an alliance player costs the
horde a reinforcement, and the fall of the four towers of the horde ends the match three
times, each time for the horde. -/
theorem reinforcements_of_the_other_team :
    (step start (.killPlayer .alliance)).teamScores = ⟨600, 599⟩ ∧
      (fourTowers.foldl step start).teamScores = ⟨150, 600⟩ ∧
      ((step (fourTowers.foldl step start) (.postUpdate 300000)).notices.countP
        Notice.isEnded) = 3 := by
  refine ⟨by decide +kernel, by decide +kernel, by decide +kernel⟩

end ZerosCore.Battlegrounds.AlteracValley
