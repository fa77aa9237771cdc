/-
# Runs of Arathi Basin

A team comes to occupy a node only after the capture time or as its defender.  An onlooker
who sees the clicks, the time and the statuses but no timer, the `Watch`, says how a team
came to a node.  `arathi_basin` puts this beside what is kept of the nodes, and says when a
run is right.
-/

import ZerosCore.Battlegrounds.ArathiNotices

namespace ZerosCore.Battlegrounds.ArathiBasin

open Lib List State Point Notice

variable {s : State} {n : ℕ}

/-! ### How a team comes to a node -/

/-- What an onlooker notes of a node: the time the match has gone on since its status last
changed or a player of the team that does not contest it clicked on it, and the status
before the last change. -/
structure Watch where
  clock : ℕ → ℕ
  before : ℕ → ℕ

/-- A click on a contested node by a player of the other team. -/
def Opposing (s : State) (n : ℕ) : Request → Prop
  | .click team near => nearNode near = n ∧ (s.points n).node = team.other.index + typeContested
  | _ => False

instance (s : State) (n : ℕ) : (r : Request) → Decidable (Opposing s n r)
  | .click _ _ => inferInstanceAs (Decidable (_ ∧ _))
  | .closeDoors | .openDoors | .postUpdate _ => .isFalse id

/-- The time a request takes in a match that is in progress. -/
def Request.time : Request → ℕ
  | .postUpdate diff => diff
  | _ => 0

/-- The onlooker sees a request that takes the match from `s` to `s'`. -/
def Watch.see (w : Watch) (s : State) (r : Request) (s' : State) : Watch where
  clock n :=
    if (s'.points n).node = (s.points n).node ∧ ¬Opposing s n r then w.clock n + r.time else 0
  before n := if (s'.points n).node = (s.points n).node then w.before n else (s.points n).node

/-- A match and its onlooker. -/
structure Watched where
  state : State
  watch : Watch

def Watched.step (x : Watched) (r : Request) : Watched :=
  let s' := ArathiBasin.step x.state r
  ⟨s', x.watch.see x.state r s'⟩

/-- A match that has just been set up. -/
def start (isBGWeekend : Bool) : Watched := ⟨reset isBGWeekend, ⟨fun _ => 0, fun _ => 0⟩⟩

/-- A team comes to occupy a node only if it has contested the node for the full capture
time and nobody of the other team clicked on it, or if a player of the team clicks on a node
that the other team contests and that the team occupied just before. -/
def TakenRight (x : Watched) (r : Request) : Prop :=
  ∀ n < dynamicNodesCount, ∀ team : Team,
    ((x.step r).state.points n).node = team.index + typeOccupied →
    (x.state.points n).node ≠ team.index + typeOccupied →
    (∃ diff, r = .postUpdate diff ∧ (x.state.points n).node = team.index + typeContested ∧
      flagCapturingTime ≤ x.watch.clock n + diff) ∨
    ∃ near, r = .click team near ∧ nearNode near = n ∧
      (x.state.points n).node = team.other.index + typeContested ∧
      x.watch.before n = team.index + typeOccupied

/-! ### The onlooker -/

/-- The onlooker knows what the previous statuses were, and the time that is left to a
contested node. -/
structure WatchOk (x : Watched) : Prop where
  inv : Inv x.state
  before : ∀ n < dynamicNodesCount, x.watch.before n = (x.state.points n).prevNode
  clock : x.state.status = .inProgress → ∀ n < dynamicNodesCount,
    Contested (x.state.points n).node →
    x.watch.clock n + (x.state.points n).nodeTimer = flagCapturingTime

/-- How a team may come to a node. -/
def Taken (x : Watched) (r : Request) (n : ℕ) (team : Team) : Prop :=
  (∃ diff, r = .postUpdate diff ∧ (x.state.points n).node = team.index + typeContested ∧
    flagCapturingTime ≤ x.watch.clock n + diff) ∨
  ∃ near, r = .click team near ∧ nearNode near = n ∧
    (x.state.points n).node = team.other.index + typeContested ∧
    x.watch.before n = team.index + typeOccupied

/-- What the onlooker must see of one node. -/
def Seen (x : Watched) (r : Request) (n : ℕ) : Prop :=
  (x.step r).watch.before n = ((x.step r).state.points n).prevNode ∧
    ((x.step r).state.status = .inProgress → Contested ((x.step r).state.points n).node →
      (x.step r).watch.clock n + ((x.step r).state.points n).nodeTimer = flagCapturingTime) ∧
    ∀ team : Team, ((x.step r).state.points n).node = team.index + typeOccupied →
      (x.state.points n).node ≠ team.index + typeOccupied → Taken x r n team

variable {x : Watched} {r : Request}

/-- A node whose status stays, while its timer loses the time the request takes. -/
theorem WatchOk.seen_of_same (h : WatchOk x) (hn : n < dynamicNodesCount)
    (hnode : ((x.step r).state.points n).node = (x.state.points n).node)
    (hprev : ((x.step r).state.points n).prevNode = (x.state.points n).prevNode)
    (htimer : (x.step r).state.status = .inProgress → Contested (x.state.points n).node →
      x.state.status = .inProgress ∧ ¬Opposing x.state n r ∧
        ((x.step r).state.points n).nodeTimer + r.time = (x.state.points n).nodeTimer) :
    Seen x r n := by
  refine ⟨?_, fun hs hc => ?_, fun team htaken hnot => absurd (hnode.symm.trans htaken) hnot⟩
  · refine (if_pos hnode).trans ?_
    rw [h.before n hn, hprev]
  rw [hnode] at hc
  obtain ⟨hbefore, hopposing, hleft⟩ := htimer hs hc
  have hclock : (x.step r).watch.clock n = x.watch.clock n + r.time := if_pos ⟨hnode, hopposing⟩
  have hsum := h.clock hbefore n hn hc
  omega

theorem seen_of_turned (hnode : ((x.step r).state.points n).node ≠ (x.state.points n).node)
    (hprev : ((x.step r).state.points n).prevNode = (x.state.points n).node)
    (htimer : Contested ((x.step r).state.points n).node →
      ((x.step r).state.points n).nodeTimer = flagCapturingTime)
    (htaken : ∀ team : Team, ((x.step r).state.points n).node = team.index + typeOccupied →
      Taken x r n team) : Seen x r n := by
  refine ⟨(if_neg hnode).trans hprev.symm, fun _ hc => ?_, fun team hto _ => htaken team hto⟩
  have hclock : (x.step r).watch.clock n = 0 := if_neg fun hand => hnode hand.1
  rw [hclock, htimer hc, zero_add]

theorem WatchOk.seen_postUpdate (h : WatchOk x) (diff : ℕ) (hn : n < dynamicNodesCount) :
    Seen x (.postUpdate diff) n := by
  by_cases hs : x.state.status = .inProgress
  · have hpoint : (x.step (.postUpdate diff)).state.points n =
        ((x.state.points n).shown diff).captured diff := by
      refine (congrFun (postUpdateImpl_nodes hs diff).1 n).trans ?_
      rw [points_served, if_pos hn]
    have htimer := (h.inv.point n hn).timer
    by_cases hends : (x.state.points n).Ends diff
    · refine seen_of_turned ?_ ?_ ?_ ?_
      · rw [hpoint, node_captured, if_pos hends]
        omega
      · rw [hpoint, prevNode_captured, if_pos hends]
      · rw [hpoint, node_captured, if_pos hends]
        have hc := htimer.mp hends.1
        unfold Contested at hc ⊢
        omega
      intro team hto
      rw [hpoint, h.inv.node_captured hn] at hto
      have hc := htimer.mp hends.1
      have hsum := h.clock hs n hn hc
      refine .inl ⟨diff, rfl, ?_, ?_⟩
      · refine hto.elim (fun heq => ?_) And.right
        rw [heq] at hc
        unfold Contested typeOccupied at hc
        omega
      have hle := hends.2
      omega
    refine h.seen_of_same hn ?_ ?_ fun _ hc => ⟨hs, id, ?_⟩
    · rw [hpoint, node_captured, if_neg hends]
    · rw [hpoint, prevNode_captured, if_neg hends]
    rw [hpoint, nodeTimer_captured, if_neg hends]
    have hne := htimer.mpr hc
    have htime : (Request.postUpdate diff).time = diff := rfl
    unfold Point.Ends at hends
    omega
  have hsame : (x.step (.postUpdate diff)).state = x.state := if_neg hs
  refine h.seen_of_same hn (by rw [hsame]) (by rw [hsame]) fun hs' => ?_
  rw [hsame] at hs'
  exact absurd hs' hs

theorem WatchOk.seen_click (h : WatchOk x) (team : Team) (near : ℕ → Bool)
    (hn : n < dynamicNodesCount) : Seen x (.click team near) n := by
  have hteam : team.index + team.other.index = 1 := by cases team <;> rfl
  have hclicked : Clicked x.state team (nearNode near) (x.step (.click team near)).state :=
    h.inv.clicked team near
  have hsame (hpoint : (x.step (.click team near)).state.points n = x.state.points n)
      (hopp : x.state.status = .inProgress → ¬Opposing x.state n (.click team near)) :
      Seen x (.click team near) n := by
    refine h.seen_of_same hn (by rw [hpoint]) (by rw [hpoint]) fun hs _ => ?_
    rw [hclicked.status] at hs
    exact ⟨hs, hopp hs, by rw [hpoint]; rfl⟩
  by_cases hmn : n = nearNode near
  swap
  · exact hsame (hclicked.points_of_ne hmn) fun _ hopp => hmn hopp.1.symm
  subst hmn
  cases hclicked with
  | idle hidle heq => exact hsame (by rw [heq]) fun hs => absurd hn (hidle hs)
  | own _ _ hnode heq =>
    refine hsame (by rw [heq]; rfl) fun _ ⟨_, hopp⟩ => ?_
    unfold typeContested typeOccupied at *
    omega
  | contests _ _ type teamIndex hold hnode heq =>
    have hpoint := congrFun (congrArg points heq) (nearNode near)
    rw [points_turnNode, if_pos rfl] at hpoint
    unfold typeContested typeOccupied at hnode
    refine seen_of_turned ?_ ?_ ?_ fun team' hto => ?_
    · rw [hpoint]
      unfold turned typeContested
      dsimp only
      omega
    · rw [hpoint]
      rfl
    · rw [hpoint]
      exact fun _ => rfl
    rw [hpoint] at hto
    unfold turned typeContested typeOccupied at hto
    dsimp only at hto
    omega
  | defends _ _ hnode hprev heq =>
    have hpoint := congrFun (congrArg points heq) (nearNode near)
    rw [points_nodeOccupied, points_turnNode, if_pos rfl] at hpoint
    have hsum := (h.inv.point _ hn).prev
    unfold Contested at hsum
    unfold typeContested typeOccupied at *
    refine seen_of_turned ?_ ?_ ?_ fun team' hto => .inr ⟨near, ?_, rfl, ?_⟩
    · rw [hpoint]
      unfold turned
      dsimp only
      omega
    · rw [hpoint]
      rfl
    · rw [hpoint]
      unfold turned Contested
      dsimp only
      omega
    all_goals
      rw [hpoint] at hto
      have hindex : team.index = team'.index := Nat.add_right_cancel hto
      obtain rfl : team = team' := by
        cases team <;> cases team' <;> first | rfl | cases hindex
    · rfl
    refine ⟨hnode, ?_⟩
    rw [h.before _ hn]
    unfold typeOccupied
    omega

theorem WatchOk.seen (h : WatchOk x) (r : Request) (hn : n < dynamicNodesCount) : Seen x r n := by
  cases r with
  | closeDoors =>
    have hsame : (x.step .closeDoors).state.points = x.state.points := by
      unfold Watched.step ArathiBasin.step startingEventCloseDoors
      dsimp only
      split
      · rw [points_nodeOccupied, points_nodeOccupied]
      · rfl
    have hstatus : (x.step .closeDoors).state.status = x.state.status := by
      unfold Watched.step ArathiBasin.step startingEventCloseDoors
      dsimp only
      split
      · rw [(beside_nodeOccupied ..).status, (beside_nodeOccupied ..).status]
      · rfl
    refine h.seen_of_same hn (by rw [hsame]) (by rw [hsame]) fun hs _ => ?_
    exact ⟨hstatus ▸ hs, id, by rw [hsame]; rfl⟩
  | openDoors =>
    have hsame : (x.step .openDoors).state.points = x.state.points := by
      unfold Watched.step ArathiBasin.step
      dsimp only
      split <;> rfl
    refine h.seen_of_same hn (by rw [hsame]) (by rw [hsame]) fun hs hc => ?_
    by_cases hwait : x.state.status = .waitJoin
    · rw [(h.inv.fresh hwait n hn).1] at hc
      simp [Contested] at hc
    have hstate : (x.step .openDoors).state = x.state := if_neg hwait
    rw [hstate] at hs
    exact ⟨hs, id, by rw [hsame]; rfl⟩
  | click team near => exact h.seen_click team near hn
  | postUpdate diff => exact h.seen_postUpdate diff hn

/-- **Every request** keeps what the watcher knows. -/
theorem WatchOk.step (h : WatchOk x) (r : Request) : WatchOk (x.step r) where
  inv := h.inv.step r
  before _ hn := (h.seen r hn).1
  clock hs _ hn := (h.seen r hn).2.1 hs

theorem WatchOk.takenRight (h : WatchOk x) (r : Request) : TakenRight x r :=
  fun _ hn => (h.seen r hn).2.2

theorem watchOk_start (isBGWeekend : Bool) : WatchOk (start isBGWeekend) where
  inv := inv_reset isBGWeekend
  before _ _ := rfl
  clock hs := by cases hs

/-! ### Runs -/


/-- **What a match keeps, and when it is right.**  In every run from the set-up on, with
whatever clicks and updates, the capture timer of a node runs exactly while the node is
contested, a node is taken only after the capture time or by its defenders, and the objects
of a node are those of its status.  And what is made of the nodes is right all along, with
one end at most, exactly if no step meets one of the four defects. -/
theorem arathi_basin (isBGWeekend : Bool) (rs : List Request) :
    Along Watched.step (fun x r => NodesRight (x.step r).state ∧ TakenRight x r)
        (start isBGWeekend) rs ∧
      (Along Watched.step (fun x r => NoticesRight (x.step r).state) (start isBGWeekend) rs ↔
        Along Watched.step (fun x r => Quiet x.state r) (start isBGWeekend) rs) := by
  have htold : Told (reset isBGWeekend) := ⟨⟨by simp [reset], by simp [reset]⟩, fun _ => rfl⟩
  constructor
  · exact Along.of_invariant (I := WatchOk) (fun x r h _ => h.step r)
      (fun x r h _ => ⟨(h.step r).inv.nodesRight, h.takenRight r⟩) (watchOk_start isBGWeekend)
      along_true
  refine Along.iff_of_invariant (I := fun x : Watched => Inv x.state ∧ Told x.state)
    (Q := fun x => NoticesRight x.state) ?_ ?_ ⟨inv_reset isBGWeekend, htold⟩
  · exact fun x r h => h.1.step_iff h.2 r
  · exact fun x r h hright => ⟨h.1.step r, h.1.told_step h.2 r hright⟩

/-- The horde takes its first node, and gets the spells for four and for five. -/
def firstNode : List Request :=
  [.closeDoors, .openDoors, .click .horde (fun n => n == 0), .postUpdate 60000]

theorem spell_of_one_base :
    nodesIndex 6 ∈ (firstNode.foldl Watched.step (start false)).state.notices ∧
      castSpell 5 .horde 1 ∈ (firstNode.foldl Watched.step (start false)).state.notices ∧
      ¬Along Watched.step (fun x r => NoticesRight (x.step r).state) (start false) firstNode := by
  decide +kernel

end ZerosCore.Battlegrounds.ArathiBasin
