/-
# The books of the queue of a battleground

A queued player points to his group, the group has him among its players, and lies in a list of
a bracket, from which other groups are moved while an update goes through it: premade groups to
the normal queue, groups of one side to the queue of the other for a skirmish, rated teams to the
queue of the side they will play on, for which the code trusts that a team that is not of the
alliance lies in the queue of the horde.

What an update does to pools, invitations, times and ratings leaves the books as they are
(`Quiet`); a move puts a group into another list and into no third one (`mem_moveFront`); and the
search of `RemovePlayer` finds a group wherever it was moved (`exists_findGroup`).  In every run
the books are right (`books_right`).
-/

import ZerosCore.Battlegrounds.BattlegroundQueue

namespace ZerosCore.Battlegrounds.Queues

open Lib BattlegroundQueue List Option Function QueueGroupType

variable {w : World} {s t u : BattlegroundQueue} {b : BracketId} {i j : QueueGroupType}
  {guid id : ℕ} {team : Team}

/-! ### What the books should be -/

structure BooksRight (s : BattlegroundQueue) : Prop where
  /-- The group of a queued player lies in one list, and there once. -/
  listed : ∀ guid id, s.queuedPlayers guid = some id → ∃ b i,
    (s.queuedGroups b i).count id = 1 ∧ ∀ b' i', id ∈ s.queuedGroups b' i' → b' = b ∧ i' = i
  players : ∀ b i, ∀ id ∈ s.queuedGroups b i, ∀ guid,
    guid ∈ (s.groups id).players ↔ s.queuedPlayers guid = some id
  nonempty : ∀ b i, ∀ id ∈ s.queuedGroups b i, (s.groups id).players.Nonempty

/-- A group that is added has its leader, and nobody who is queued already. -/
def Valid (s : BattlegroundQueue) : World × Request → Prop
  | (_, .addGroup leader _ grp _ _ _ _ _ _) =>
    leader ∈ grp.getD [leader] ∧ ∀ guid ∈ grp.getD [leader], s.queuedPlayers guid = none
  | _ => True

/-- The books are kept. -/
structure Booked (s : BattlegroundQueue) : Prop where
  nodup : ∀ b i, (s.queuedGroups b i).Nodup
  apart : ∀ id b i b' i', id ∈ s.queuedGroups b i → id ∈ s.queuedGroups b' i' → b' = b ∧ i' = i
  listed : ∀ guid id, s.queuedPlayers guid = some id → ∃ b i, id ∈ s.queuedGroups b i
  players : ∀ b i, ∀ id ∈ s.queuedGroups b i, ∀ guid,
    guid ∈ (s.groups id).players ↔ s.queuedPlayers guid = some id
  nonempty : ∀ b i, ∀ id ∈ s.queuedGroups b i, (s.groups id).players.Nonempty
  fresh : ∀ b i, ∀ id ∈ s.queuedGroups b i, id < s.next

/-- What holds between two requests: a premade group or a rated team lies in the queue of its
side. -/
structure Inv (s : BattlegroundQueue) : Prop extends Booked s where
  sides : ∀ b team, ∀ id ∈ s.queuedGroups b (.premade team), (s.groups id).team = team

theorem Booked.right (h : Booked s) : BooksRight s := by
  refine ⟨fun guid id hq => ?_, h.players, h.nonempty⟩
  obtain ⟨b, i, hid⟩ := h.listed guid id hq
  exact ⟨b, i, count_eq_one_of_mem (h.nodup b i) hid, fun b' i' => h.apart id b i b' i' hid⟩

/-! ### What leaves the books as they are -/

/-- No player comes or goes, no group is moved, and only groups of the mixed queue change their
side. -/
structure Quiet (s t : BattlegroundQueue) : Prop where
  queuedPlayers : t.queuedPlayers = s.queuedPlayers
  queuedGroups : t.queuedGroups = s.queuedGroups
  next : t.next = s.next
  players : ∀ id, (t.groups id).players = (s.groups id).players
  team : ∀ id, (t.groups id).team = (s.groups id).team ∨ ∃ b, id ∈ s.queuedGroups b .mixed

theorem Quiet.refl (s : BattlegroundQueue) : Quiet s s :=
  ⟨rfl, rfl, rfl, fun _ => rfl, fun _ => .inl rfl⟩

theorem Quiet.trans (h : Quiet s t) (h' : Quiet t u) : Quiet s u := by
  refine ⟨h'.queuedPlayers.trans h.queuedPlayers, h'.queuedGroups.trans h.queuedGroups,
    h'.next.trans h.next, fun id => (h'.players id).trans (h.players id), fun id => ?_⟩
  rcases h'.team id with hteam | hmixed
  · rw [hteam]
    exact h.team id
  rw [h.queuedGroups] at hmixed
  exact .inr hmixed

theorem Booked.congr (hs : Booked s) (hqueued : t.queuedPlayers = s.queuedPlayers)
    (hgroups : t.queuedGroups = s.queuedGroups) (hnext : t.next = s.next)
    (hplayers : ∀ id, (t.groups id).players = (s.groups id).players) : Booked t := by
  refine ⟨?_, ?_, ?_, ?_, ?_, ?_⟩
  · rw [hgroups]
    exact hs.nodup
  · rw [hgroups]
    exact hs.apart
  · rw [hgroups, hqueued]
    exact hs.listed
  · simp only [hgroups, hqueued, hplayers]
    exact hs.players
  · simp only [hgroups, hplayers]
    exact hs.nonempty
  rw [hgroups, hnext]
  exact hs.fresh

theorem Quiet.inv (h : Quiet s t) (hs : Inv s) : Inv t := by
  refine ⟨hs.toBooked.congr h.queuedPlayers h.queuedGroups h.next h.players,
    fun b team id hid => ?_⟩
  rw [h.queuedGroups] at hid
  rcases h.team id with hteam | ⟨b', hmixed⟩
  · exact hteam.trans (hs.sides b team id hid)
  have hapart := (hs.apart id b (.premade team) b' .mixed hid hmixed).2
  cases hapart

theorem groups_modifyGroup_self (f : GroupQueueInfo → GroupQueueInfo) :
    (s.modifyGroup id f).groups id = f (s.groups id) :=
  update_self ..

variable {id' : ℕ}

theorem groups_modifyGroup_of_ne (f : GroupQueueInfo → GroupQueueInfo) (h : id' ≠ id) :
    (s.modifyGroup id f).groups id' = s.groups id' :=
  update_of_ne h ..

theorem players_modifyGroup (f : GroupQueueInfo → GroupQueueInfo)
    (hplayers : ∀ g, (f g).players = g.players) (id' : ℕ) :
    ((s.modifyGroup id f).groups id').players = (s.groups id').players := by
  by_cases hid : id' = id
  · rw [hid, groups_modifyGroup_self, hplayers]
  · rw [groups_modifyGroup_of_ne f hid]

theorem quiet_modifyGroup (f : GroupQueueInfo → GroupQueueInfo)
    (hplayers : ∀ g, (f g).players = g.players)
    (hteam : (f (s.groups id)).team = (s.groups id).team ∨ ∃ b, id ∈ s.queuedGroups b .mixed) :
    Quiet s (s.modifyGroup id f) := by
  refine ⟨rfl, rfl, rfl, players_modifyGroup f hplayers, fun id' => ?_⟩
  by_cases hid : id' = id
  · rw [hid, groups_modifyGroup_self]
    exact hteam
  rw [groups_modifyGroup_of_ne f hid]
  exact .inl rfl

theorem quiet_setPool (s : BattlegroundQueue) (team : Team) (pool : SelectionPool) :
    Quiet s (s.setPool team pool) :=
  ⟨rfl, rfl, rfl, fun _ => rfl, fun _ => .inl rfl⟩

theorem quiet_initPools (s : BattlegroundQueue) : Quiet s s.initPools :=
  (quiet_setPool s .alliance _).trans (quiet_setPool _ .horde _)

theorem quiet_select (s : BattlegroundQueue) (team : Team) (id desiredCount : ℕ) :
    Quiet s (s.select team id desiredCount).1 :=
  quiet_setPool ..

theorem quiet_kick (s : BattlegroundQueue) (team : Team) (size : ℕ) :
    Quiet s (s.kick team size).1 :=
  quiet_setPool ..

theorem quiet_selectWhile (team : Team) (desiredCount : ℕ) (l : List ℕ) (s : BattlegroundQueue) :
    Quiet s (selectWhile team desiredCount l s).2 := by
  induction l generalizing s with
  | nil => exact .refl s
  | cons id rest ih =>
    simp only [selectWhile]
    split
    · exact (quiet_select s team id desiredCount).trans (ih _)
    · exact quiet_select s team id desiredCount

theorem quiet_selectUntil (team : Team) (desiredCount : ℕ) (l : List ℕ) (s : BattlegroundQueue) :
    Quiet s (selectUntil team desiredCount l s) := by
  induction l generalizing s with
  | nil => exact .refl s
  | cons id rest ih =>
    simp only [selectUntil]
    split
    · exact ih s
    split
    · exact (quiet_select s team id desiredCount).trans (ih _)
    · exact quiet_select s team id desiredCount

theorem quiet_selectEnough (team : Team) (minPlayers maxPlayers : ℕ) (l : List ℕ)
    (s : BattlegroundQueue) : Quiet s (selectEnough team minPlayers maxPlayers l s).2 := by
  induction l generalizing s with
  | nil => exact .refl s
  | cons id rest ih =>
    simp only [selectEnough]
    split
    · exact ih s
    split
    · exact quiet_select s team id maxPlayers
    · exact (quiet_select s team id maxPlayers).trans (ih _)

theorem quiet_kickAndFill (free : Team → ℕ) (s : BattlegroundQueue) (team : Team)
    (rest : List ℕ) : Quiet s (s.kickAndFill free team rest).2 := by
  simp only [kickAndFill]
  split
  · exact (quiet_kick ..).trans (quiet_selectWhile ..)
  · exact quiet_kick ..

theorem quiet_balance (free : Team → ℕ) (n : ℕ) (rest : Team → List ℕ) (s : BattlegroundQueue) :
    Quiet s (balance free n rest s) := by
  induction n generalizing rest s with
  | zero => exact .refl s
  | succ n ih =>
    simp only [balance]
    split
    · have hkicked := quiet_kickAndFill free s (s.kickSide free) (rest (s.kickSide free))
      split
      · split
        · exact hkicked
        · exact hkicked.trans ((quiet_kick ..).trans (ih _ _))
      · exact hkicked.trans (ih _ _)
    · exact .refl s

theorem quiet_invite (bg : Place) (s : BattlegroundQueue) (id : ℕ) :
    Quiet s (s.inviteGroupToBG bg id (s.groups id).team) :=
  quiet_modifyGroup _ (fun _ => rfl) (.inl rfl)

theorem players_inviteGroupToBG (bg : Place) (s : BattlegroundQueue) (id : ℕ) (side : Team)
    (id' : ℕ) : ((s.inviteGroupToBG bg id side).groups id').players = (s.groups id').players := by
  refine players_modifyGroup (fun g => { g with
    team := side
    isInvitedToBGInstanceGUID :=
      if g.isInvitedToBGInstanceGUID = 0 then bg.instanceID else g.isInvitedToBGInstanceGUID }) ?_ id'
  exact fun _ => rfl

theorem quiet_invitePool (bg : Place) (s : BattlegroundQueue) (team : Team) :
    Quiet s (s.invitePool bg team) :=
  foldlRecOn _ _ (.refl s) fun t ht id _ => ht.trans (quiet_invite bg t id)

theorem quiet_invitePools (bg : Place) (s : BattlegroundQueue) : Quiet s (s.invitePools bg) :=
  (quiet_invitePool bg s .alliance).trans (quiet_invitePool bg _ .horde)

variable {l : List ℕ}

theorem mem_bySizeDown : id ∈ s.bySizeDown l ↔ id ∈ l := by
  have hfold (m : List ℕ) : id ∈ l.foldl (fun m id => Multimap.insert s.size id m) m ↔
      id ∈ m ∨ id ∈ l := by
    induction l generalizing m with
    | nil => simp
    | cons a l ih =>
      rw [foldl_cons, ih, Multimap.mem_insert, mem_cons]
      tauto
  rw [bySizeDown, mem_reverse, hfold]
  simp

theorem quiet_preAddPlayers (s : BattlegroundQueue) (ids : List ℕ) (maxAdd : ℤ)
    (maxInTeam : ℕ) : Quiet s (s.preAddPlayers ids maxAdd maxInTeam).1 := by
  refine foldlRecOn (motive := fun x : BattlegroundQueue × ℤ => Quiet s x.1) _ _ (.refl s)
    fun x hx id _ => ?_
  dsimp only
  split
  · exact hx.trans (quiet_select ..)
  · exact hx

theorem quiet_fillXGroup (bg : Place) (free : Team → ℕ) (x : BattlegroundQueue × (Team → ℤ))
    (hid : id ∈ x.1.queuedGroups b .mixed) : Quiet x.1 (fillXGroup bg free x id).1 := by
  simp only [fillXGroup]
  split
  · exact .refl _
  split
  · exact quiet_select ..
  refine Quiet.trans (t := x.1.modifyGroup id _) ?_ (quiet_select ..)
  exact quiet_modifyGroup _ (fun _ => rfl) (.inr ⟨b, hid⟩)

/-- **Battlegrounds for both sides**: groups of the mixed queue get their sides. -/
theorem quiet_fillXPlayersToBG (s : BattlegroundQueue) (b : BracketId) (bg : Place)
    (start : Bool) : Quiet s (s.fillXPlayersToBG w b bg start).1 := by
  simp only [fillXPlayersToBG]
  split
  · have hloop (t : BattlegroundQueue) (vfree : Team → ℤ) (free : Team → ℕ) (ht : Quiet s t) :
        Quiet s (((t.bySizeDown (s.queuedGroups b .mixed)).foldl (fillXGroup bg free)
          (t, vfree)).1) := by
      refine foldlRecOn (motive := fun x : BattlegroundQueue × (Team → ℤ) => Quiet s x.1) _ _
        ht fun x hx id hid => hx.trans (quiet_fillXGroup (b := b) bg free x ?_)
      rw [hx.queuedGroups]
      exact mem_bySizeDown.mp hid
    split
    · exact hloop _ _ _ (((quiet_initPools s).trans (quiet_preAddPlayers ..)).trans
        (quiet_preAddPlayers ..))
    · exact hloop _ _ _ (quiet_initPools s)
  · exact .refl s

theorem quiet_checkCrossFactionMatch (s : BattlegroundQueue) (b : BracketId) (bg : Place) :
    Quiet s (s.checkCrossFactionMatch w b bg).1 := by
  simp only [checkCrossFactionMatch]
  split
  · exact .refl s
  · split <;> exact quiet_fillXPlayersToBG ..

theorem quiet_fillPlayersToBG (s : BattlegroundQueue) (bg : Place) (b : BracketId) :
    Quiet s (s.fillPlayersToBG w bg b) := by
  have hfirst : Quiet s (if bg.isArena then (s, false)
      else s.fillXPlayersToBG w b bg false).1 := by
    split
    · exact .refl s
    · exact quiet_fillXPlayersToBG ..
  simp only [fillPlayersToBG]
  generalize (if bg.isArena then (s, false) else s.fillXPlayersToBG w b bg false) = x at hfirst ⊢
  obtain ⟨t, filled⟩ := x
  split
  · exact hfirst
  split
  · exact (hfirst.trans (quiet_selectWhile ..)).trans (quiet_selectWhile ..)
  exact ((hfirst.trans (quiet_selectWhile ..)).trans (quiet_selectWhile ..)).trans
    (quiet_balance ..)

theorem quiet_fillFreeSlots (bgTypeId : ℕ) (s : BattlegroundQueue) (bg : Place) :
    Quiet s (fillFreeSlots w bgTypeId b s bg) := by
  rw [fillFreeSlots]
  split
  · exact ((quiet_initPools s).trans (quiet_fillPlayersToBG ..)).trans (quiet_invitePools ..)
  · exact .refl s

theorem quiet_selectMore (leftAlliance leftHorde : List ℕ) (s : BattlegroundQueue) :
    Quiet s (selectMore leftAlliance leftHorde s) := by
  rw [selectMore]
  split <;> exact quiet_selectUntil ..

theorem quiet_checkNormalMatch (s : BattlegroundQueue) (b : BracketId) (minPlayers maxPlayers : ℕ) :
    Quiet s (s.checkNormalMatch w b minPlayers maxPlayers).1 := by
  have hboth : Quiet s (selectEnough .horde minPlayers maxPlayers
      ((selectEnough .alliance minPlayers maxPlayers (s.queuedGroups b (.normal .alliance))
        s).2.queuedGroups b (.normal .horde))
      (selectEnough .alliance minPlayers maxPlayers (s.queuedGroups b (.normal .alliance)) s).2).2 :=
    (quiet_selectEnough ..).trans (quiet_selectEnough ..)
  simp only [checkNormalMatch]
  split
  · split <;> exact hboth.trans (quiet_selectMore ..)
  · exact hboth

/-! ### Moves -/

theorem queuedGroups_modifyList (s : BattlegroundQueue) (b : BracketId) (i : QueueGroupType)
    (f : List ℕ → List ℕ) (b' : BracketId) (i' : QueueGroupType) :
    (s.modifyList b i f).queuedGroups b' i' =
      if b' = b ∧ i' = i then f (s.queuedGroups b i) else s.queuedGroups b' i' := by
  rw [modifyList]
  dsimp only
  by_cases hb : b' = b
  · subst hb
    rw [update_self]
    by_cases hi : i' = i
    · rw [hi, update_self, if_pos ⟨rfl, rfl⟩]
    · rw [update_of_ne hi, if_neg fun h => hi h.2]
  · rw [update_of_ne hb, if_neg fun h => hb h.1]

/-- A group goes from a list to the front of another one. -/
structure Moved (s t : BattlegroundQueue) (b : BracketId) (i j : QueueGroupType) (id : ℕ) :
    Prop where
  queuedGroups : ∀ b' i', t.queuedGroups b' i' =
    if b' = b ∧ i' = i then (s.queuedGroups b i).erase id
    else if b' = b ∧ i' = j then id :: s.queuedGroups b j
    else s.queuedGroups b' i'
  queuedPlayers : t.queuedPlayers = s.queuedPlayers
  next : t.next = s.next
  players : ∀ id', (t.groups id').players = (s.groups id').players

theorem moved_moveFront (s : BattlegroundQueue) (b : BracketId) (hij : i ≠ j) (id : ℕ) :
    Moved s (s.moveFront b i j id) b i j id := by
  refine ⟨fun b' i' => ?_, rfl, rfl, fun _ => rfl⟩
  rw [moveFront, queuedGroups_modifyList, queuedGroups_modifyList, queuedGroups_modifyList,
    if_neg (show ¬ (b = b ∧ i = j) from fun h => hij h.2)]

/-- **A move** puts the group into the other list, and into no third one. -/
theorem Moved.mem_iff (h : Moved s t b i j id) (hs : Booked s) (hid : id ∈ s.queuedGroups b i)
    {b' : BracketId} {i' : QueueGroupType} (hij : i ≠ j) : id' ∈ t.queuedGroups b' i' ↔
      id' = id ∧ b' = b ∧ i' = j ∨ id' ≠ id ∧ id' ∈ s.queuedGroups b' i' := by
  rw [h.queuedGroups]
  split
  · rename_i hi
    obtain ⟨rfl, rfl⟩ := hi
    rw [(hs.nodup b' i').mem_erase_iff]
    constructor
    · exact .inr
    rintro (⟨-, -, heq⟩ | hold)
    · exact absurd heq hij
    · exact hold
  rename_i hi
  have hother (hmem : id ∈ s.queuedGroups b' i') : False := hi (hs.apart id b i b' i' hid hmem)
  split
  · rename_i hj
    obtain ⟨rfl, rfl⟩ := hj
    rw [mem_cons]
    constructor
    · rintro (rfl | hold)
      · exact .inl ⟨rfl, rfl, rfl⟩
      · exact .inr ⟨fun heq => hother (heq ▸ hold), hold⟩
    rintro (⟨rfl, -, -⟩ | ⟨-, hold⟩)
    · exact .inl rfl
    · exact .inr hold
  rename_i hj
  constructor
  · exact fun hold => .inr ⟨fun heq => hother (heq ▸ hold), hold⟩
  rintro (⟨-, hb⟩ | ⟨-, hold⟩)
  · exact absurd hb hj
  · exact hold

theorem Moved.booked (h : Moved s t b i j id) (hs : Booked s) (hid : id ∈ s.queuedGroups b i)
    (hij : i ≠ j) : Booked t := by
  have hmem {id' : ℕ} {b' : BracketId} {i' : QueueGroupType} :
      id' ∈ t.queuedGroups b' i' ↔
        id' = id ∧ b' = b ∧ i' = j ∨ id' ≠ id ∧ id' ∈ s.queuedGroups b' i' := h.mem_iff hs hid hij
  have hlisted {id' : ℕ} {b' : BracketId} {i' : QueueGroupType} (h' : id' ∈ t.queuedGroups b' i') :
      ∃ b i, id' ∈ s.queuedGroups b i := by
    rcases hmem.mp h' with ⟨rfl, -⟩ | ⟨-, hold⟩
    · exact ⟨b, i, hid⟩
    · exact ⟨b', i', hold⟩
  refine ⟨fun b' i' => ?_, fun id' b1 i1 b2 i2 h1 h2 => ?_, fun guid id' hq => ?_,
    fun b' i' id' h' guid => ?_, fun b' i' id' h' => ?_, fun b' i' id' h' => ?_⟩
  · rw [h.queuedGroups]
    split
    · exact (hs.nodup b i).erase id
    split
    · refine nodup_cons.mpr ⟨fun hj => hij ?_, hs.nodup b j⟩
      exact (hs.apart id b i b j hid hj).2.symm
    · exact hs.nodup b' i'
  · rcases hmem.mp h1 with ⟨rfl, rfl, rfl⟩ | ⟨hne, h1⟩
    · rcases hmem.mp h2 with ⟨-, hb, hi⟩ | ⟨hne, -⟩
      · exact ⟨hb, hi⟩
      · exact absurd rfl hne
    rcases hmem.mp h2 with ⟨heq, -⟩ | ⟨-, h2⟩
    · exact absurd heq hne
    · exact hs.apart id' b1 i1 b2 i2 h1 h2
  · rw [h.queuedPlayers] at hq
    obtain ⟨b', i', hold⟩ := hs.listed guid id' hq
    by_cases heq : id' = id
    · exact ⟨b, j, hmem.mpr (.inl ⟨heq, rfl, rfl⟩)⟩
    · exact ⟨b', i', hmem.mpr (.inr ⟨heq, hold⟩)⟩
  · obtain ⟨b0, i0, hold⟩ := hlisted h'
    rw [h.players, h.queuedPlayers]
    exact hs.players b0 i0 id' hold guid
  · obtain ⟨b0, i0, hold⟩ := hlisted h'
    rw [h.players]
    exact hs.nonempty b0 i0 id' hold
  obtain ⟨b0, i0, hold⟩ := hlisted h'
  rw [h.next]
  exact hs.fresh b0 i0 id' hold

/-- **A move to a normal queue.** -/
theorem Moved.inv_normal (h : Moved s t b i (.normal team) id) (hs : Inv s)
    (hid : id ∈ s.queuedGroups b i) (hij : i ≠ .normal team)
    (hteam : ∀ id', id' ≠ id → (t.groups id').team = (s.groups id').team) : Inv t := by
  refine ⟨h.booked hs.toBooked hid hij, fun b' team' id' h' => ?_⟩
  rcases (h.mem_iff hs.toBooked hid hij).mp h' with ⟨-, -, hi⟩ | ⟨hne, hold⟩
  · cases hi
  rw [hteam id' hne]
  exact hs.sides b' team' id' hold

theorem inv_premadeToNormal (minPlayersPerTeam : ℕ) (team : Team) (hs : Inv s) :
    Inv (premadeToNormal w b minPlayersPerTeam s team) := by
  rw [premadeToNormal]
  split
  · exact hs
  rename_i id rest hlist
  split
  · have hid : id ∈ s.queuedGroups b (.premade team) := by
      rw [hlist]
      exact mem_cons_self
    have hne : premade team ≠ .normal team := nofun
    exact (moved_moveFront s b hne id).inv_normal hs hid hne fun _ _ => rfl
  · exact hs

theorem inv_checkPremadeMatch (hs : Inv s) (minPlayersPerTeam maxPlayersPerTeam : ℕ) :
    Inv (s.checkPremadeMatch w b minPlayersPerTeam maxPlayersPerTeam).1 := by
  simp only [checkPremadeMatch]
  split
  · refine Quiet.inv ?_ hs
    refine foldlRecOn _ _ ((quiet_select ..).trans (quiet_select ..)) fun t ht team _ => ?_
    exact ht.trans (quiet_selectUntil ..)
  · exact foldlRecOn _ _ hs fun t ht team _ => inv_premadeToNormal minPlayersPerTeam team ht

/-! ### Skirmishes -/

variable {ginfo : ℕ}

theorem eraseAfter_eq {post : List ℕ} (pre : List ℕ) (hl : l = pre ++ ginfo :: post)
    (hnodup : l.Nodup) (hid : id ∈ post) :
    eraseAfter ginfo id l = l.erase id ∧ l.erase id = pre ++ ginfo :: post.erase id := by
  subst hl
  induction pre with
  | nil =>
    have hne : ginfo ≠ id := fun heq => (nodup_cons.mp hnodup).1 (heq ▸ hid)
    rw [nil_append, eraseAfter, if_pos rfl, erase_cons_tail (by simpa using hne)]
    exact ⟨rfl, rfl⟩
  | cons a pre ih =>
    rw [cons_append, nodup_cons, mem_append, not_or] at hnodup
    obtain ⟨⟨-, hpost⟩, hnodup⟩ := hnodup
    have hginfo : a ≠ ginfo := fun heq => hpost (heq ▸ mem_cons_self)
    have hne : a ≠ id := fun heq => hpost (heq ▸ mem_cons_of_mem _ hid)
    obtain ⟨hafter, herase⟩ := ih hnodup
    rw [cons_append, eraseAfter, if_neg hginfo, erase_cons_tail (by simpa using hne),
      hafter, herase]
    exact ⟨rfl, rfl⟩

theorem selected_selectUntil (team : Team) (desiredCount : ℕ) (l : List ℕ)
    (s : BattlegroundQueue) : ∃ l', l'.Sublist l ∧
      ((selectUntil team desiredCount l s).selectionPools team).selectedGroups =
        (s.selectionPools team).selectedGroups ++ l' := by
  have hselect (id : ℕ) (s : BattlegroundQueue) : ∃ l', l'.Sublist [id] ∧
      ((s.select team id desiredCount).1.selectionPools team).selectedGroups =
        (s.selectionPools team).selectedGroups ++ l' := by
    simp only [select, setPool, update_self, SelectionPool.addGroup]
    split
    · exact ⟨[id], Sublist.refl _, rfl⟩
    · exact ⟨[], nil_sublist _, (append_nil _).symm⟩
  induction l generalizing s with
  | nil => exact ⟨[], Sublist.refl _, (append_nil _).symm⟩
  | cons id rest ih =>
    simp only [selectUntil]
    split
    · obtain ⟨l', hl, heq⟩ := ih s
      exact ⟨l', hl.cons id, heq⟩
    obtain ⟨l1, hl1, heq1⟩ := hselect id s
    split
    · obtain ⟨l2, hl2, heq2⟩ := ih (s.select team id desiredCount).1
      refine ⟨l1 ++ l2, hl1.append hl2, ?_⟩
      rw [heq2, heq1, append_assoc]
    · exact ⟨l1, hl1.trans (singleton_sublist.mpr mem_cons_self), heq1⟩

theorem groups_changeSide (ginfo : ℕ) (s : BattlegroundQueue) (id : ℕ) :
    (changeSide b team ginfo s id).groups =
      (s.modifyGroup id fun g => { g with team := team.other }).groups :=
  rfl

theorem moved_changeSide {pre post : List ℕ} (hs : Inv s)
    (hl : s.queuedGroups b (.normal team) = pre ++ ginfo :: post) (hid : id ∈ post) :
    Moved s (changeSide b team ginfo s id) b (.normal team) (.normal team.other) id ∧
      (changeSide b team ginfo s id).queuedGroups b (.normal team) =
        pre ++ ginfo :: post.erase id := by
  have hne : (normal team) ≠ .normal team.other := by
    cases team <;> exact nofun
  obtain ⟨hafter, herase⟩ := eraseAfter_eq pre hl (hs.nodup b _) hid
  have hlists (b' : BracketId) (i' : QueueGroupType) :
      (changeSide b team ginfo s id).queuedGroups b' i' =
        if b' = b ∧ i' = .normal team then (s.queuedGroups b (.normal team)).erase id
        else if b' = b ∧ i' = .normal team.other then id :: s.queuedGroups b (.normal team.other)
        else s.queuedGroups b' i' := by
    rw [changeSide, queuedGroups_modifyList, queuedGroups_modifyList, queuedGroups_modifyList,
      if_neg (show ¬ (b = b ∧ normal team = .normal team.other) from
        fun h => hne h.2), ← hafter]
    rfl
  refine ⟨⟨hlists, rfl, rfl, fun id' => ?_⟩, ?_⟩
  · rw [groups_changeSide]
    exact players_modifyGroup (fun g => { g with team := team.other }) (fun _ => rfl) id'
  · rw [hlists, if_pos ⟨rfl, rfl⟩, herase]

/-- **The groups of a pool change sides**, one after the other. -/
theorem inv_changeSides (hl : l.Nodup) {pre post : List ℕ} (hs : Inv s)
    (hqueue : s.queuedGroups b (.normal team) = pre ++ ginfo :: post) (hpost : ∀ id ∈ l, id ∈ post) :
    Inv (l.foldl (changeSide b team ginfo) s) := by
  induction l generalizing s post with
  | nil => exact hs
  | cons id l ih =>
    rw [nodup_cons] at hl
    have hid := hpost id mem_cons_self
    obtain ⟨hmoved, hnext⟩ := moved_changeSide hs hqueue hid
    have hmem : id ∈ s.queuedGroups b (.normal team) := by
      rw [hqueue]
      exact mem_append_right _ (mem_cons_of_mem _ hid)
    have hne : (normal team) ≠ .normal team.other := by
      cases team <;> exact nofun
    refine ih hl.2 (hmoved.inv_normal hs hmem hne fun id' hid' => ?_) hnext fun id' hid' => ?_
    · rw [groups_changeSide, groups_modifyGroup_of_ne _ hid']
    have hne : id' ≠ id := fun heq => hl.1 (heq ▸ hid')
    refine (mem_erase_of_ne hne).mpr ?_
    exact hpost id' (mem_cons_of_mem _ hid')

theorem exists_split (h : ginfo ∈ l) :
    ∃ pre, l = pre ++ ginfo :: (l.dropWhile (· ≠ ginfo)).tail := by
  induction l with
  | nil => cases h
  | cons a l ih =>
    by_cases ha : a = ginfo
    · subst ha
      exact ⟨[], by simp⟩
    obtain ⟨pre, hpre⟩ := ih ((mem_cons.mp h).resolve_left (Ne.symm ha))
    refine ⟨a :: pre, ?_⟩
    rw [dropWhile_cons_of_pos (by simpa using ha), cons_append, ← hpre]

/-- **A skirmish** between groups of one side. -/
theorem inv_checkSkirmishForSameFaction (hs : Inv s) (minPlayersPerTeam : ℕ) :
    Inv (s.checkSkirmishForSameFaction b minPlayersPerTeam).1 := by
  simp only [checkSkirmishForSameFaction]
  split
  · exact hs
  generalize (if s.playerCount .horde = minPlayersPerTeam then Team.horde else .alliance) = team
  have hinit : Inv (s.initPool team.other) := (quiet_setPool ..).inv hs
  have hempty : ((s.initPool team.other).selectionPools team.other).selectedGroups = [] := by
    simp only [initPool, setPool, update_self]
  generalize s.initPool team.other = t at hinit hempty
  split
  · exact hinit
  rename_i ginfo _
  split
  · rename_i hmem
    have hselected := quiet_selectUntil team.other minPlayersPerTeam
      ((t.queuedGroups b (.normal team)).dropWhile (· ≠ ginfo)).tail t
    split
    · obtain ⟨pre, hpre⟩ := exists_split hmem
      obtain ⟨l', hl', hpool⟩ := selected_selectUntil team.other minPlayersPerTeam
        ((t.queuedGroups b (.normal team)).dropWhile (· ≠ ginfo)).tail t
      rw [hempty, nil_append] at hpool
      have hnodup := hinit.nodup b (.normal team)
      rw [hpre] at hnodup
      have htail := (nodup_cons.mp (nodup_append.mp hnodup).2.1).2
      have hqueue := (congrFun (congrFun hselected.queuedGroups b) (.normal team)).trans hpre
      rw [hpool]
      exact inv_changeSides (hl'.nodup htail) (hselected.inv hinit) hqueue fun id hid =>
        hl'.subset hid
    · exact hselected.inv hinit
  · exact hinit

/-! ### Rated matches -/

variable {source : Team}

/-- A team that lies in the queue of its side goes to the queue of the side it will play on. -/
theorem moveToSide_spec (hs : Booked s)
    (hid : id ∈ s.queuedGroups b (.premade source)) (hteam : (s.groups id).team = source)
    (side : Team) : Booked (s.moveToSide b id side) ∧ (s.moveToSide b id side).groups = s.groups ∧
      ∀ id' b' i', id' ∈ (s.moveToSide b id side).queuedGroups b' i' ↔
        id' = id ∧ b' = b ∧ i' = .premade side ∨ id' ≠ id ∧ id' ∈ s.queuedGroups b' i' := by
  rw [moveToSide]
  split
  · rename_i hside
    rw [hteam] at hside
    subst hside
    refine ⟨hs, rfl, fun id' b' i' => ⟨fun h => ?_, ?_⟩⟩
    · by_cases heq : id' = id
      · subst heq
        obtain ⟨hb, hi⟩ := hs.apart _ _ _ _ _ hid h
        exact .inl ⟨rfl, hb, hi⟩
      · exact .inr ⟨heq, h⟩
    rintro (⟨rfl, rfl, rfl⟩ | ⟨-, h⟩)
    · exact hid
    · exact h
  rename_i hside
  have hsource : source = side.other := by
    rw [hteam] at hside
    cases source <;> cases side <;> first | rfl | exact absurd rfl hside
  subst hsource
  have hne : premade side.other ≠ .premade side := by
    cases side <;> exact nofun
  have hmoved := moved_moveFront s b hne id
  exact ⟨hmoved.booked hs hid hne, rfl, fun id' b' i' => hmoved.mem_iff hs hid hne⟩

/-- **A rated match**: the teams go to the queues of their new sides. -/
theorem startRatedMatch_spec (hs : Inv s) (arena : Place) {aTeam hTeam : ℕ} {target : Team}
    (ha : aTeam ∈ s.queuedGroups b (.premade source))
    (hh : hTeam ∈ s.queuedGroups b (.premade target)) (hne : hTeam ≠ aTeam) :
    Inv (s.startRatedMatch b arena aTeam hTeam) ∧ ∀ id b' i',
      id ∈ (s.startRatedMatch b arena aTeam hTeam).queuedGroups b' i' ↔
        id = hTeam ∧ b' = b ∧ i' = .premade .horde ∨
          id ≠ hTeam ∧ (id = aTeam ∧ b' = b ∧ i' = .premade .alliance ∨
            id ≠ aTeam ∧ id ∈ s.queuedGroups b' i') := by
  obtain ⟨hfirst, hfirstGroups, hfirstMem⟩ :=
    moveToSide_spec hs.toBooked ha (hs.sides b source aTeam ha) .alliance
  have hhFirst : hTeam ∈ (s.moveToSide b aTeam .alliance).queuedGroups b (.premade target) :=
    (hfirstMem hTeam b _).mpr (.inr ⟨hne, hh⟩)
  have hhTeam : ((s.moveToSide b aTeam .alliance).groups hTeam).team = target := by
    rw [hfirstGroups]
    exact hs.sides b target hTeam hh
  obtain ⟨hsecond, hsecondGroups, hsecondMem⟩ := moveToSide_spec hfirst hhFirst hhTeam .horde
  rw [startRatedMatch]
  generalize (s.moveToSide b aTeam .alliance).moveToSide b hTeam .horde = t
    at hsecond hsecondGroups hsecondMem
  have hgroups : t.groups = s.groups := hsecondGroups.trans hfirstGroups
  have hmem (id : ℕ) (b' : BracketId) (i' : QueueGroupType) : id ∈ t.queuedGroups b' i' ↔
      id = hTeam ∧ b' = b ∧ i' = .premade .horde ∨
        id ≠ hTeam ∧ (id = aTeam ∧ b' = b ∧ i' = .premade .alliance ∨
          id ≠ aTeam ∧ id ∈ s.queuedGroups b' i') := by
    rw [hsecondMem, hfirstMem]
  refine ⟨⟨hsecond.congr rfl rfl rfl fun id => ?_, fun b' team id hid => ?_⟩, hmem⟩
  · rw [players_inviteGroupToBG, players_inviteGroupToBG]
  rw [inviteGroupToBG, inviteGroupToBG]
  rcases (hmem id b' (.premade team)).mp hid with ⟨rfl, -, hi⟩ | ⟨hidh, hrest⟩
  · rw [groups_modifyGroup_self]
    cases hi
    rfl
  rw [groups_modifyGroup_of_ne _ hidh]
  rcases hrest with ⟨rfl, -, hi⟩ | ⟨hida, hold⟩
  · rw [groups_modifyGroup_self]
    cases hi
    rfl
  rw [groups_modifyGroup_of_ne _ hida, hgroups]
  exact hs.sides b' team id hold

theorem quiet_widenRange (s : BattlegroundQueue) (id : ℕ) : Quiet s (s.widenRange w id) := by
  rw [widenRange]
  split
  · exact quiet_modifyGroup _ (fun _ => rfl) (.inl rfl)
  · exact .refl s

theorem findOpponents_spec {g : GroupQueueInfo} (h : s.findOpponents w b g = some id) :
    (∃ team, id ∈ s.queuedGroups b (.premade team)) ∧
      g.arenaTeamId ≠ (s.groups id).arenaTeamId := by
  obtain ⟨team, -, hfind⟩ := exists_of_findSome?_eq_some h
  have hpred := find?_some hfind
  rw [Bool.and_eq_true, decide_eq_true_iff] at hpred
  exact ⟨⟨team, mem_of_find?_eq_some hfind⟩, hpred.2⟩

/-- **The loop of the rated matches** goes through teams that lie in the list. -/
theorem inv_ratedLoop (n created : ℕ) {rest : List ℕ} (hs : Inv s) (hnodup : rest.Nodup)
    (hrest : ∀ id ∈ rest, id ∈ s.queuedGroups b (.premade team)) :
    Inv (ratedLoop w b n created rest s).1 := by
  induction n generalizing created rest s with
  | zero => exact hs
  | succ n ih =>
    cases rest with
    | nil => exact hs
    | cons front1 rest =>
      obtain ⟨hfront, hnodup⟩ := nodup_cons.mp hnodup
      have hmem := hrest front1 mem_cons_self
      have hlater (id : ℕ) (hid : id ∈ rest) : id ∈ s.queuedGroups b (.premade team) :=
        hrest id (mem_cons_of_mem _ hid)
      simp only [ratedLoop]
      split
      · exact ih created hs hnodup hlater
      have ht := quiet_widenRange (w := w) s front1
      generalize s.widenRange w front1 = t at ht ⊢
      have ht' := ht.inv hs
      rw [← ht.queuedGroups] at hlater hmem
      split
      · exact ih created ht' hnodup hlater
      rename_i hTeam hfound
      obtain ⟨⟨target, hh⟩, hteams⟩ := findOpponents_spec hfound
      have hne : hTeam ≠ front1 := fun heq => hteams (by rw [heq])
      split
      · exact ht'
      rename_i arena _
      obtain ⟨hmatch, hmatchMem⟩ := startRatedMatch_spec ht' arena hmem hh hne
      have hskip : (if rest.head? = some hTeam then rest.tail else rest).Sublist
          rest := by
        split
        · exact tail_sublist rest
        · exact Sublist.refl rest
      refine ih (created + 1) hmatch ?_ fun id hid => (hmatchMem id b _).mpr ?_
      · split
        · exact hnodup.sublist hskip
        · exact hnodup.sublist (erase_sublist.trans hskip)
      split at hid
      · rename_i hhorde
        have hold := hlater id (hskip.subset hid)
        by_cases hidh : id = hTeam
        · subst hidh
          rw [ht'.sides b team id hold] at hhorde
          exact .inl ⟨rfl, rfl, by rw [hhorde]⟩
        have hida : id ≠ front1 := fun heq => hfront (heq ▸ hskip.subset hid)
        exact .inr ⟨hidh, .inr ⟨hida, hold⟩⟩
      have hin := ((hnodup.sublist hskip).mem_erase_iff).mp hid
      have hida : id ≠ front1 := fun heq => hfront (heq ▸ hskip.subset hin.2)
      exact .inr ⟨hin.1, .inr ⟨hida, hlater id (hskip.subset hin.2)⟩⟩

theorem inv_ratedUpdate (hs : Inv s) (created : ℕ) : Inv (s.ratedUpdate w b created) := by
  have hloop (n created : ℕ) {t : BattlegroundQueue} (ht : Inv t) (team : Team) :
      Inv (ratedLoop w b n created (t.queuedGroups b (.premade team)) t).1 :=
    inv_ratedLoop n created ht (ht.nodup b _) fun _ hid => hid
  have hfirst := hloop (s.queuedGroups b (.premade .alliance)).length created hs .alliance
  simp only [ratedUpdate]
  split
  · rename_i heq
    rw [heq] at hfirst
    exact hfirst
  rename_i heq
  rw [heq] at hfirst
  exact hloop _ _ hfirst .horde

/-! ### Updates -/

theorem inv_checkMatch (hs : Inv s) (bg : Place) (minPlayersPerTeam maxPlayersPerTeam : ℕ) :
    Inv (s.checkMatch w bg b minPlayersPerTeam maxPlayersPerTeam).1 := by
  have hnormal : Inv (s.checkNormalMatch w b minPlayersPerTeam maxPlayersPerTeam).1 :=
    (quiet_checkNormalMatch ..).inv hs
  simp only [checkMatch]
  generalize s.checkNormalMatch w b minPlayersPerTeam maxPlayersPerTeam = x at hnormal
  obtain ⟨t, found⟩ := x
  split
  · exact hnormal
  have hskirmish : Inv (if bg.isArena then t.checkSkirmishForSameFaction b minPlayersPerTeam
      else (t, false)).1 := by
    split
    · exact inv_checkSkirmishForSameFaction hnormal minPlayersPerTeam
    · exact hnormal
  generalize (if bg.isArena then t.checkSkirmishForSameFaction b minPlayersPerTeam
    else (t, false)) = y at hskirmish
  obtain ⟨u, found⟩ := y
  split
  · exact hskirmish
  · exact (quiet_checkCrossFactionMatch ..).inv hskirmish

theorem inv_updateMatches (hs : Inv s) (bg : Place) (isRated : Bool) (arenaRating : UInt32)
    (minPlayersPerTeam maxPlayersPerTeam created : ℕ) :
    Inv (s.updateMatches w bg b isRated arenaRating minPlayersPerTeam maxPlayersPerTeam
      created) := by
  have hmatch := inv_checkMatch (w := w) (b := b) hs bg minPlayersPerTeam maxPlayersPerTeam
  simp only [updateMatches]
  split
  · split
    · split
      · exact hmatch
      · exact (quiet_invitePools ..).inv hmatch
    · exact hmatch
  split
  · exact inv_ratedUpdate hs created
  · exact hs

theorem inv_newMatches (hs : Inv s) (bg : Place) (isRated : Bool) (arenaRating : UInt32)
    (minPlayersPerTeam maxPlayersPerTeam : ℕ) :
    Inv (s.newMatches w bg b isRated arenaRating minPlayersPerTeam maxPlayersPerTeam) := by
  have hpools := (quiet_initPools s).inv hs
  have hpremade : Inv (if bg.isArena then (s.initPools, false)
      else s.initPools.checkPremadeMatch w b minPlayersPerTeam maxPlayersPerTeam).1 := by
    split
    · exact hpools
    · exact inv_checkPremadeMatch hpools minPlayersPerTeam maxPlayersPerTeam
  simp only [newMatches]
  generalize (if bg.isArena then (s.initPools, false)
    else s.initPools.checkPremadeMatch w b minPlayersPerTeam maxPlayersPerTeam) = x at hpremade
  obtain ⟨t, found⟩ := x
  split
  · split
    · exact hpremade
    refine inv_updateMatches ?_ ..
    exact ((quiet_invitePools ..).trans (quiet_initPools _)).inv hpremade
  · exact inv_updateMatches hpremade ..

/-- **An update** keeps the books. -/
theorem inv_battlegroundQueueUpdate (hs : Inv s) (bgTypeId arenaType : ℕ) (isRated : Bool)
    (arenaRating : UInt32) :
    Inv (s.battlegroundQueueUpdate w bgTypeId b arenaType isRated arenaRating) := by
  simp only [battlegroundQueueUpdate]
  split
  · exact hs
  have hfilled : Inv ((w.bgFreeSlotQueue bgTypeId).foldl (fillFreeSlots w bgTypeId b) s) :=
    foldlRecOn _ _ hs fun t ht bg _ => (quiet_fillFreeSlots bgTypeId t bg).inv ht
  split
  · exact hfilled
  split
  · exact inv_newMatches hfilled ..
  · exact hfilled

/-! ### Players come and go -/

theorem exists_findGroup (hid : id ∈ s.queuedGroups b i) :
    ∃ b' i', s.findGroup id = some (b', i') ∧ id ∈ s.queuedGroups b' i' := by
  have hfound : (s.findGroup id).isSome := by
    rw [findGroup, findSome?_isSome_iff]
    refine ⟨b, mem_reverse.mpr (mem_finRange b), ?_⟩
    rw [isSome_map, find?_isSome]
    refine ⟨i, mem_reverse.mpr ?_, decide_eq_true hid⟩
    cases i with
    | premade team | normal team => cases team <;> decide
    | mixed => decide
  obtain ⟨⟨b', i'⟩, hsome⟩ := isSome_iff_exists.mp hfound
  refine ⟨b', i', hsome, ?_⟩
  obtain ⟨b0, -, hb0⟩ := exists_of_findSome?_eq_some hsome
  obtain ⟨i0, hi0, heq⟩ := map_eq_some_iff.mp hb0
  cases heq
  have hmem := find?_some hi0
  exact of_decide_eq_true hmem

theorem groups_takeOut (s : BattlegroundQueue) (guid id : ℕ) : (takeOut s guid id).groups =
    (s.modifyGroup id fun g => { g with players := g.players.erase guid }).groups :=
  rfl

theorem players_takeOut (s : BattlegroundQueue) (guid id id' : ℕ) :
    ((takeOut s guid id).groups id').players =
      if id' = id then (s.groups id).players.erase guid else (s.groups id').players := by
  rw [groups_takeOut]
  by_cases hid : id' = id
  · rw [if_pos hid, hid, groups_modifyGroup_self]
  · rw [if_neg hid, groups_modifyGroup_of_ne _ hid]

/-- **The books of the others**: every group but that of the player has its players. -/
theorem Inv.players_takeOut (hs : Inv s) (hq : s.queuedPlayers guid = some id)
    (hid : id' ∈ s.queuedGroups b i) (guid' : ℕ) :
    guid' ∈ ((takeOut s guid id).groups id').players ↔
      (takeOut s guid id).queuedPlayers guid' = some id' := by
  have hold := hs.players b i id' hid guid'
  have hqueued : (takeOut s guid id).queuedPlayers = update s.queuedPlayers guid none := rfl
  rw [Queues.players_takeOut, hqueued]
  by_cases hguid : guid' = guid
  · subst hguid
    rw [update_self]
    split
    · exact iff_of_false (fun h => (Finset.mem_erase.mp h).1 rfl) nofun
    rename_i hne
    rw [hold, hq]
    exact iff_of_false (fun h => hne (some.inj h).symm) nofun
  rw [update_of_ne hguid]
  split
  · rename_i heq
    subst heq
    rw [Finset.mem_erase, hold]
    exact and_iff_right hguid
  · exact hold

theorem team_takeOut (s : BattlegroundQueue) (guid id id' : ℕ) :
    ((takeOut s guid id).groups id').team = (s.groups id').team := by
  rw [groups_takeOut]
  by_cases hid : id' = id
  · rw [hid, groups_modifyGroup_self]
  · rw [groups_modifyGroup_of_ne _ hid]

theorem listed_takeOut {guid' : ℕ} (h : (takeOut s guid id).queuedPlayers guid' = some id') :
    s.queuedPlayers guid' = some id' := by
  have hqueued : (takeOut s guid id).queuedPlayers = update s.queuedPlayers guid none := rfl
  rw [hqueued] at h
  by_cases hguid : guid' = guid
  · rw [hguid, update_self] at h
    cases h
  · rwa [update_of_ne hguid] at h

/-- **A player leaves a group** that others stay in. -/
theorem Inv.takeOut_some (hs : Inv s) (hq : s.queuedPlayers guid = some id)
    (hrest : ((takeOut s guid id).groups id).players.Nonempty) : Inv (takeOut s guid id) := by
  refine ⟨⟨hs.nodup, hs.apart, fun guid' id' h => hs.listed guid' id' (listed_takeOut h),
    fun b i id' hid => hs.players_takeOut hq hid, fun b i id' hid => ?_, hs.fresh⟩,
    fun b team id' hid => ?_⟩
  · by_cases heq : id' = id
    · rw [heq]
      exact hrest
    rw [Queues.players_takeOut, if_neg heq]
    exact hs.nonempty b i id' hid
  rw [team_takeOut]
  exact hs.sides b team id' hid

/-- **The last player leaves a group**, and the group is deleted. -/
theorem Inv.takeOut_last (hs : Inv s) (hq : s.queuedPlayers guid = some id)
    (hid : id ∈ s.queuedGroups b i) (hrest : ((takeOut s guid id).groups id).players = ∅) :
    Inv ((takeOut s guid id).modifyList b i fun l => l.erase id) := by
  have hmem (id' : ℕ) (b' : BracketId) (i' : QueueGroupType) :
      id' ∈ ((takeOut s guid id).modifyList b i fun l => l.erase id).queuedGroups b' i' ↔
        id' ≠ id ∧ id' ∈ s.queuedGroups b' i' := by
    rw [queuedGroups_modifyList]
    split
    · rename_i hi
      rw [hi.1, hi.2]
      exact (hs.nodup b i).mem_erase_iff
    rename_i hi
    have hne (h : id' ∈ s.queuedGroups b' i') : id' ≠ id := by
      rintro rfl
      exact hi (hs.apart _ b i b' i' hid h)
    exact (and_iff_right_of_imp hne).symm
  refine ⟨⟨fun b' i' => ?_, fun id' b1 i1 b2 i2 h1 h2 => ?_, fun guid' id' h => ?_,
    fun b' i' id' h guid' => ?_, fun b' i' id' h => ?_, fun b' i' id' h => ?_⟩,
    fun b' team id' h => ?_⟩
  · rw [queuedGroups_modifyList]
    split
    · exact (hs.nodup b i).erase id
    · exact hs.nodup b' i'
  · exact hs.apart id' b1 i1 b2 i2 ((hmem ..).mp h1).2 ((hmem ..).mp h2).2
  · have htaken : (s.takeOut guid id).queuedPlayers guid' = some id' := h
    have hqueued := listed_takeOut htaken
    obtain ⟨b', i', hold⟩ := hs.listed guid' id' hqueued
    refine ⟨b', i', (hmem ..).mpr ⟨fun heq => ?_, hold⟩⟩
    subst heq
    have hin := (hs.players_takeOut hq hold guid').mpr h
    rw [hrest] at hin
    exact absurd hin (Finset.notMem_empty guid')
  · exact hs.players_takeOut hq ((hmem ..).mp h).2 guid'
  · obtain ⟨hne, hold⟩ := (hmem ..).mp h
    have hplayers := Queues.players_takeOut s guid id id'
    rw [if_neg hne] at hplayers
    exact hplayers ▸ hs.nonempty b' i' id' hold
  · exact hs.fresh b' i' id' ((hmem ..).mp h).2
  · exact (team_takeOut s guid id id').trans (hs.sides b' team id' ((hmem ..).mp h).2)

/-- **A player is removed**, and with him a rated team that is not invited. -/
theorem inv_removePlayerFrom (n : ℕ) (hs : Inv s) (guid : ℕ) : Inv (s.removePlayerFrom n guid) := by
  induction n using Nat.strong_induction_on generalizing s guid with
  | _ n ih =>
    rw [removePlayerFrom.eq_def]
    dsimp only
    split
    · exact hs
    rename_i id hq
    obtain ⟨b, i, hid⟩ := hs.listed guid id hq
    obtain ⟨b, i, hfound, hid⟩ := exists_findGroup hid
    rw [hfound]
    dsimp only
    split
    · rename_i hrest
      exact hs.takeOut_last hq hid hrest
    rename_i hrest
    have hinv := hs.takeOut_some hq (Finset.nonempty_iff_ne_empty.mpr hrest)
    split
    · split
      · exact ih _ (Nat.lt_succ_self _) hinv _
      · exact hinv
    · exact hinv

/-- **A group is added.** -/
theorem inv_addGroup (hs : Inv s) {leader : ℕ} {grp : Option (List ℕ)}
    (hleader : leader ∈ grp.getD [leader])
    (hfree : ∀ guid ∈ grp.getD [leader], s.queuedPlayers guid = none) (team : Team)
    (b : BracketId) (arenaType : ℕ) (isRated isPremade : Bool) (matchmakerRating : UInt32)
    (arenaTeamId : ℕ) :
    Inv (s.addGroup w leader team grp b arenaType isRated isPremade matchmakerRating
      arenaTeamId) := by
  simp only [addGroup]
  generalize hindex : (if w.crossfactionEnabled = true ∧ arenaType = 0 then mixed
    else if (!isRated && !isPremade) = true then .normal team else .premade team) = index
  generalize grp.getD [leader] = members at hleader hfree ⊢
  have hside {team' : Team} (h : index = .premade team') : team' = team := by
    subst hindex
    split at h
    · cases h
    split at h
    · cases h
    cases h
    rfl
  have hnew {b' : BracketId} {i' : QueueGroupType} {id' : ℕ} (h : id' ∈ s.queuedGroups b' i') :
      id' ≠ s.next := Nat.ne_of_lt (hs.fresh b' i' id' h)
  set t := modifyList _ b index _ with ht
  have hmem (id' : ℕ) (b' : BracketId) (i' : QueueGroupType) : id' ∈ t.queuedGroups b' i' ↔
      id' ∈ s.queuedGroups b' i' ∨ id' = s.next ∧ b' = b ∧ i' = index := by
    rw [ht, queuedGroups_modifyList]
    split
    · rename_i hi
      rw [hi.1, hi.2, mem_append, mem_singleton, and_iff_left ⟨rfl, rfl⟩]
    rename_i hi
    exact (or_iff_left fun h => hi h.2).symm
  have hqueued (guid' : ℕ) : t.queuedPlayers guid' =
      if guid' ∈ members then some s.next else s.queuedPlayers guid' := rfl
  have hplayers (id' : ℕ) : (t.groups id').players =
      if id' = s.next then members.toFinset else (s.groups id').players := by
    rw [ht, modifyList]
    dsimp only
    by_cases hid : id' = s.next
    · rw [hid, update_self, if_pos rfl]
    · rw [update_of_ne hid, if_neg hid]
  have hteam (id' : ℕ) : (t.groups id').team =
      if id' = s.next then team else (s.groups id').team := by
    rw [ht, modifyList]
    dsimp only
    by_cases hid : id' = s.next
    · rw [hid, update_self, if_pos rfl]
    · rw [update_of_ne hid, if_neg hid]
  refine ⟨⟨fun b' i' => ?_, fun id' b1 i1 b2 i2 h1 h2 => ?_, fun guid' id' h => ?_,
    fun b' i' id' h guid' => ?_, fun b' i' id' h => ?_, fun b' i' id' h => ?_⟩,
    fun b' team' id' h => ?_⟩
  · rw [ht, queuedGroups_modifyList]
    split
    · refine nodup_append.mpr ⟨hs.nodup b index, nodup_singleton _, ?_⟩
      intro id' hid' id'' hid''
      rw [mem_singleton.mp hid'']
      exact hnew hid'
    · exact hs.nodup b' i'
  · rcases (hmem ..).mp h1 with hold1 | ⟨rfl, rfl, rfl⟩
    · rcases (hmem ..).mp h2 with hold2 | ⟨rfl, -⟩
      · exact hs.apart id' b1 i1 b2 i2 hold1 hold2
      · exact absurd rfl (hnew hold1)
    rcases (hmem ..).mp h2 with hold2 | ⟨-, hb, hi⟩
    · exact absurd rfl (hnew hold2)
    · exact ⟨hb, hi⟩
  · rw [hqueued] at h
    split at h
    · cases h
      exact ⟨b, index, (hmem ..).mpr (.inr ⟨rfl, rfl, rfl⟩)⟩
    obtain ⟨b', i', hold⟩ := hs.listed guid' id' h
    exact ⟨b', i', (hmem ..).mpr (.inl hold)⟩
  · rw [hplayers, hqueued]
    rcases (hmem ..).mp h with hold | ⟨rfl, -, -⟩
    · rw [if_neg (hnew hold), hs.players b' i' id' hold guid']
      split
      · rename_i hin
        rw [hfree guid' hin]
        exact iff_of_false nofun fun h => hnew hold (some.inj h).symm
      · exact Iff.rfl
    rw [if_pos rfl, List.mem_toFinset]
    split
    · rename_i hin
      exact iff_of_true hin rfl
    rename_i hin
    refine iff_of_false hin fun h => ?_
    obtain ⟨b0, i0, hold⟩ := hs.listed guid' s.next h
    exact hnew hold rfl
  · rw [hplayers]
    split
    · exact ⟨leader, mem_toFinset.mpr hleader⟩
    rename_i hne
    rcases (hmem ..).mp h with hold | ⟨heq, -⟩
    · exact hs.nonempty b' i' id' hold
    · exact absurd heq hne
  · have hnext : t.next = s.next + 1 := rfl
    rcases (hmem ..).mp h with hold | ⟨rfl, -⟩
    · exact Nat.lt_succ_of_lt (hs.fresh b' i' id' hold)
    · exact Nat.lt_succ_self _
  rw [hteam]
  rcases (hmem ..).mp h with hold | ⟨rfl, -, hi⟩
  · rw [if_neg (hnew hold)]
    exact hs.sides b' team' id' hold
  rw [if_pos rfl]
  exact (hside hi.symm).symm

/-! ### Runs -/

theorem inv_step (hs : Inv s) (r : World × Request) (hvalid : Valid s r) : Inv (step s r) := by
  obtain ⟨w, request⟩ := r
  cases request with
  | addGroup leader team grp b arenaType isRated isPremade matchmakerRating arenaTeamId =>
    exact inv_addGroup hs hvalid.1 hvalid.2 ..
  | removePlayer guid => exact inv_removePlayerFrom _ hs guid
  | update bgTypeId b arenaType isRated arenaRating =>
    exact inv_battlegroundQueueUpdate hs ..

theorem inv_initial : Inv .initial where
  nodup _ _ := nodup_nil
  apart _ _ _ _ _ h := nomatch h
  listed _ _ h := nomatch h
  players _ _ _ h := nomatch h
  nonempty _ _ _ h := nomatch h
  fresh _ _ _ h := nomatch h
  sides _ _ _ h := nomatch h

/-- **The books are right in every run** in which only players who are not queued are added. -/
theorem books_right (rs : List (World × Request)) (hvalid : Along step Valid .initial rs) :
    Along step (fun s r => BooksRight (step s r)) .initial rs :=
  Along.of_invariant (I := Inv) (fun _ r hs hr => inv_step hs r hr)
    (fun _ r hs hr => (inv_step hs r hr).right) inv_initial hvalid

/-- `books_right` for two teams of one side, of which the update moves the one to the other side
when it invites both to an arena, and a player of it who leaves. -/
theorem books_right_two_groups :
    let arena : Place := ⟨1, 6, 3, 1, true, true, fun _ => 2, 2, 2⟩
    let w : World :=
      { noBattlegrounds with
        hasBracketEntry := true
        battlegroundTemplate := fun _ => some arena
        createNewBattleground := fun _ => some arena }
    let rs : List (World × Request) :=
      [(w, .addGroup 7 .horde (some [7, 8]) 3 2 true false 1500 1),
        (w, .addGroup 9 .horde (some [9, 10]) 3 2 true false 1500 2), (w, .update 6 3 2 true 0),
        (w, .removePlayer 7)]
    Along step (fun s r => BooksRight (step s r)) .initial rs ∧
      (rs.foldl step .initial).queuedGroups 3 (.premade .alliance) = [0] ∧
      (rs.foldl step .initial).queuedGroups 3 (.premade .horde) = [1] :=
  ⟨books_right _ ⟨⟨by decide, by decide⟩, ⟨by decide, by decide⟩, trivial, trivial, trivial⟩,
    by decide +kernel, by decide +kernel⟩

end ZerosCore.Battlegrounds.Queues
