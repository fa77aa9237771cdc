/-
# Who leads, and whether the group is still there

`RemoveMember` may disband the group in three places, and says so in two of them: when the
group is too small to begin with and when the group finder's group is down to its leader.
The third looks at the linked players, disbands the group if too few are left, and
answers `true` all the same; `Battleground::RemovePlayerAtLeave` keeps its pointer then.
The new leader is looked for among the members in the world, and if there is none the
group goes on under a leader who has left it.

Along every run in which enough players stay linked when a member is taken out, some
member is in the world to take over from the leader, and nobody is added twice
(`Regular`), the members are distinct, the leader is one of them, and the answer of
`RemoveMember` says whether the group is there (`led_of_regular`).
-/

import ZerosCore.Groups.Group
import ZerosCore.Lib.Run

namespace ZerosCore.Groups

open Lib List Option Groups.Group

variable {g g' : Group} {w : World} {guid : ℕ} {method : RemoveMethod}

/-! ### What a request should leave -/

/-- The members are pairwise distinct, and the leader is one of them. -/
structure Group.Coherent (g : Group) : Prop where
  distinct : g.members.Nodup
  led : g.leaderGuid ∈ g.members

/-- What `RemoveMember` leaves, and what it says. -/
structure Group.RemovesWell (g : Group) (w : World) (guid : ℕ) (method : RemoveMethod) : Prop where
  leaves : ∀ g', (g.removeMember w guid method).2 = some g' → g'.members =
    if g.kind.isLFGGroup ∧ method = .kick then g.members else g.members.filter (· ≠ guid)
  answer : (g.removeMember w guid method).1 = false ↔ (g.removeMember w guid method).2 = none

/-- The group is coherent after the request, and a removal does what it says. -/
def StepWell (s : State) (r : Request) : Prop :=
  (∀ g, (step s r).group = some g → g.Coherent) ∧
    ∀ g guid method, s.group = some g → r = .removeMember guid method →
      g.RemovesWell s.world guid method

/-- Taking out a member goes well: either the answer is given before anybody is taken out,
or a member in the world takes over from the leader and enough players stay linked, unless
the group finder's group is over before they are counted. -/
def Group.Safe (g : Group) (w : World) (guid : ℕ) (method : RemoveMethod) : Prop :=
  (g.kind.isLFGGroup ∧ method = .kick) ∨ g.getMembersCount ≤ g.leastMembers ∨
    ((g.takeOut w guid).pickLeader w guid).lfgOver w = true ∨
    (g.leaderGuid = guid → ∃ m ∈ g.members, m ≠ guid ∧ w.findPlayer m = true) ∧
      g.leastLinked ≤ (g.takeOut w guid).memberMgr.length

/-- Nobody is added who is a member already, and removals are safe. -/
def Regular (s : State) : Request → Prop
  | .addMember player => ∀ g ∈ s.group, player ∉ g.members
  | .removeMember guid method => ∀ g ∈ s.group, g.Safe s.world guid method
  | _ => True

instance (g : Group) (w : World) (guid : ℕ) (method : RemoveMethod) :
    Decidable (g.Safe w guid method) :=
  inferInstanceAs (Decidable (_ ∨ _ ∨ _ ∨ _))

instance (s : State) : (r : Request) → Decidable (Regular s r)
  | .addMember _ | .removeMember _ _ => inferInstanceAs (Decidable (∀ g ∈ s.group, _))
  | .create _ _ | .changeLeader _ | .logIn _ | .logOut _ | .surroundings _ => .isTrue trivial

/-! ### Joining and leading -/

theorem freeSubGroup_newGroup (kind : GroupKind) (leader : ℕ) :
    (newGroup kind leader).freeSubGroup = some 0 := by
  unfold freeSubGroup newGroup
  split
  · rfl
  rename_i counts hcounts
  split at hcounts
  · rw [← some.inj hcounts]
    rfl
  · exact absurd hcounts (by simp)

theorem members_addMember (h : guid ∉ g.members) (hg : g.members.Nodup) :
    (g.addMember guid).2.members.Nodup ∧ ∀ m ∈ g.members, m ∈ (g.addMember guid).2.members := by
  unfold addMember
  split
  · exact ⟨hg, fun _ hm => hm⟩
  rename_i subGroup _
  show ((g.memberSlots ++ [MemberSlot.mk guid subGroup]).map MemberSlot.guid).Nodup ∧
    ∀ m ∈ g.members, m ∈ (g.memberSlots ++ [MemberSlot.mk guid subGroup]).map MemberSlot.guid
  rw [map_append]
  refine ⟨nodup_append.mpr ⟨hg, nodup_singleton _, ?_⟩, fun m hm =>
    mem_append_left _ hm⟩
  intro a ha b hb hab
  rw [map_singleton, mem_singleton] at hb
  rw [hab, hb] at ha
  exact h ha

theorem leaderGuid_addMember (g : Group) (guid : ℕ) :
    (g.addMember guid).2.leaderGuid = g.leaderGuid := by
  unfold addMember
  split <;> rfl

theorem Group.Coherent.addMember (h : g.Coherent) (hnew : guid ∉ g.members) :
    (g.addMember guid).2.Coherent := by
  obtain ⟨hdistinct, hkeep⟩ := members_addMember hnew h.distinct
  refine ⟨hdistinct, ?_⟩
  rw [leaderGuid_addMember]
  exact hkeep _ h.led

theorem coherent_create (kind : GroupKind) (leader : ℕ) : (create kind leader).2.Coherent := by
  have hmembers : (create kind leader).2.members = [leader] := by
    unfold create addMember
    rw [freeSubGroup_newGroup]
    rfl
  refine ⟨?_, ?_⟩
  · rw [hmembers]
    exact nodup_singleton leader
  rw [hmembers]
  unfold create
  rw [leaderGuid_addMember]
  exact mem_singleton_self leader

theorem members_changeLeader (g : Group) (w : World) (guid : ℕ) :
    (g.changeLeader w guid).members = g.members := by
  unfold changeLeader
  split
  · rfl
  · split <;> rfl

theorem leaderGuid_changeLeader (g : Group) (w : World) (guid : ℕ) :
    (g.changeLeader w guid).leaderGuid = g.leaderGuid ∨
      (g.changeLeader w guid).leaderGuid ∈ g.members := by
  unfold changeLeader
  split
  · exact .inl rfl
  rename_i slot hslot
  split
  · exact .inr (mem_map_of_mem (mem_of_find?_eq_some hslot))
  · exact .inl rfl

theorem Group.Coherent.changeLeader (h : g.Coherent) (w : World) (guid : ℕ) :
    (g.changeLeader w guid).Coherent := by
  refine ⟨?_, ?_⟩
  · rw [members_changeLeader]
    exact h.distinct
  rw [members_changeLeader]
  rcases leaderGuid_changeLeader g w guid with heq | hmem
  · rw [heq]
    exact h.led
  · exact hmem

theorem leaderGuid_changeLeader_of_findPlayer (hmem : guid ∈ g.members)
    (hfind : w.findPlayer guid = true) : (g.changeLeader w guid).leaderGuid = guid := by
  obtain ⟨slot, hslot, hguid⟩ := mem_map.mp hmem
  unfold changeLeader
  cases hsearch : g.memberSlots.find? (·.guid = guid) with
  | none =>
    have hnone := find?_eq_none.mp hsearch slot hslot
    exact absurd hguid (by simpa using hnone)
  | some slot' =>
    have hguid' : slot'.guid = guid := by simpa using find?_some hsearch
    simp [hguid', hfind]

/-! ### Leaving -/

theorem eraseP_guid (l : List MemberSlot) (h : (l.map MemberSlot.guid).Nodup) :
    (l.eraseP fun slot => slot.guid = guid).map MemberSlot.guid =
      (l.map MemberSlot.guid).filter (· ≠ guid) := by
  induction l with
  | nil => rfl
  | cons slot l ih =>
    rw [map_cons, nodup_cons] at h
    by_cases hslot : slot.guid = guid
    · have hrest : (l.map MemberSlot.guid).filter (· ≠ guid) = l.map MemberSlot.guid :=
        filter_eq_self.mpr fun m hm => by
          have hne : m ≠ guid := fun heq => h.1 (by rw [hslot, ← heq]; exact hm)
          simpa using hne
      rw [eraseP_cons_of_pos (by simpa using hslot), map_cons,
        filter_cons_of_neg (by simpa using hslot), hrest]
    rw [eraseP_cons_of_neg (by simpa using hslot), map_cons, map_cons,
      filter_cons_of_pos (by simpa using hslot), ih h.2]

theorem takeOut_fields (g : Group) (w : World) (guid : ℕ) :
    (g.takeOut w guid).kind = g.kind ∧ (g.takeOut w guid).leaderGuid = g.leaderGuid ∧
      (g.takeOut w guid).memberSlots = g.memberSlots.eraseP fun slot => slot.guid = guid := by
  have hunlink : ∀ b : Bool, (if b then g.unlink guid else g).kind = g.kind ∧
      (if b then g.unlink guid else g).leaderGuid = g.leaderGuid ∧
      (if b then g.unlink guid else g).memberSlots = g.memberSlots := by
    intro b
    cases b <;> exact ⟨rfl, rfl, rfl⟩
  obtain ⟨hkind, hleader, hslots⟩ := hunlink (w.findPlayer guid || !g.ofBattle)
  unfold takeOut
  dsimp only
  split
  · rename_i hnone
    rw [hslots] at hnone
    refine ⟨hkind, hleader, hslots.trans (eraseP_of_forall_not ?_).symm⟩
    exact fun slot hslot => find?_eq_none.mp hnone slot hslot
  · exact ⟨hkind, hleader, congrArg (eraseP _) hslots⟩

theorem members_takeOut (h : g.Coherent) (w : World) (guid : ℕ) :
    (g.takeOut w guid).members = g.members.filter (· ≠ guid) := by
  unfold members
  rw [(takeOut_fields g w guid).2.2]
  exact eraseP_guid g.memberSlots h.distinct

theorem pickLeader_fields (g : Group) (w : World) (guid : ℕ) :
    (g.pickLeader w guid).kind = g.kind ∧ (g.pickLeader w guid).members = g.members ∧
      (g.pickLeader w guid).memberMgr = g.memberMgr := by
  have hchange : ∀ m, (g.changeLeader w m).kind = g.kind ∧
      (g.changeLeader w m).memberMgr = g.memberMgr := by
    intro m
    unfold changeLeader
    split
    · exact ⟨rfl, rfl⟩
    · split <;> exact ⟨rfl, rfl⟩
  unfold pickLeader
  split
  · split
    · exact ⟨rfl, rfl, rfl⟩
    · exact ⟨(hchange _).1, members_changeLeader _ _ _, (hchange _).2⟩
  · exact ⟨rfl, rfl, rfl⟩

/-- **Somebody takes over**: if a member is in the world, the leader is a member again. -/
theorem leaderGuid_pickLeader (hled : g.leaderGuid ≠ guid → g.leaderGuid ∈ g.members)
    (hfind : g.leaderGuid = guid → ∃ m ∈ g.members, w.findPlayer m = true) :
    (g.pickLeader w guid).leaderGuid ∈ g.members := by
  unfold pickLeader
  split
  · rename_i hleader
    obtain ⟨m, hm, hworld⟩ := hfind hleader
    obtain ⟨slot, hslot, rfl⟩ := mem_map.mp hm
    cases hsearch : g.memberSlots.find? (fun slot => w.findPlayer slot.guid) with
    | none => exact absurd hworld (find?_eq_none.mp hsearch slot hslot)
    | some slot' =>
      have hmem : slot'.guid ∈ g.members := mem_map_of_mem (mem_of_find?_eq_some hsearch)
      rw [leaderGuid_changeLeader_of_findPlayer hmem
        (find?_some (p := fun slot : MemberSlot => w.findPlayer slot.guid) hsearch)]
      exact hmem
  rename_i hleader
  exact hled hleader

theorem Group.Coherent.pickLeader_takeOut (h : g.Coherent)
    (hfind : g.leaderGuid = guid → ∃ m ∈ g.members, m ≠ guid ∧ w.findPlayer m = true) :
    ((g.takeOut w guid).pickLeader w guid).Coherent := by
  have hmembers := members_takeOut h w guid
  obtain ⟨-, hpick, -⟩ := pickLeader_fields (g.takeOut w guid) w guid
  have hleader := (takeOut_fields g w guid).2.1
  refine ⟨?_, ?_⟩
  · rw [hpick, hmembers]
    exact h.distinct.filter _
  rw [hpick]
  refine leaderGuid_pickLeader (fun hne => ?_) fun heq => ?_
  · rw [hleader] at hne ⊢
    rw [hmembers]
    exact mem_filter.mpr ⟨h.led, by simpa using hne⟩
  rw [hleader] at heq
  obtain ⟨m, hm, hne, hworld⟩ := hfind heq
  rw [hmembers]
  exact ⟨m, mem_filter.mpr ⟨hm, by simpa using hne⟩, hworld⟩

/-- **A safe removal**: the answer is true, and then the group is there, coherent and with
the others in it, or it is false and the group is not. -/
theorem Group.Safe.removeMember (h : g.Coherent) (hsafe : g.Safe w guid method) :
    (∃ g', g.removeMember w guid method = (true, some g') ∧ g'.Coherent ∧ g'.members =
      if g.kind.isLFGGroup ∧ method = .kick then g.members else g.members.filter (· ≠ guid)) ∨
      g.removeMember w guid method = (false, none) := by
  unfold Group.removeMember
  by_cases hkick : g.kind.isLFGGroup = true ∧ method = .kick
  · rw [if_pos hkick, if_pos hkick]
    have hcount : g.getMembersCount ≠ 0 := by
      have hpos := length_pos_of_mem h.led
      rw [members, length_map] at hpos
      exact Nat.ne_of_gt hpos
    exact .inl ⟨g, by simp [hcount], h, rfl⟩
  rw [if_neg hkick, if_neg hkick]
  by_cases hsize : g.getMembersCount > g.leastMembers
  · rw [if_pos hsize]
    by_cases hover : ((g.takeOut w guid).pickLeader w guid).lfgOver w = true
    · rw [if_pos hover]
      exact .inr rfl
    rw [if_neg hover]
    obtain ⟨hfind, hlinked⟩ : (g.leaderGuid = guid →
        ∃ m ∈ g.members, m ≠ guid ∧ w.findPlayer m = true) ∧
        g.leastLinked ≤ (g.takeOut w guid).memberMgr.length := by
      rcases hsafe with hk | hs | ho | hok
      · exact absurd hk hkick
      · exact absurd hsize (Nat.not_lt.mpr hs)
      · exact absurd ho hover
      · exact hok
    obtain ⟨hkind, hpick, hmgr⟩ := pickLeader_fields (g.takeOut w guid) w guid
    have hleast : ((g.takeOut w guid).pickLeader w guid).leastLinked = g.leastLinked := by
      unfold leastLinked
      rw [hkind, (takeOut_fields g w guid).1]
    rw [if_neg (by rw [hmgr, hleast]; exact Nat.not_lt.mpr hlinked)]
    refine .inl ⟨_, rfl, h.pickLeader_takeOut hfind, ?_⟩
    rw [hpick, members_takeOut h]
  rw [if_neg hsize]
  exact .inr rfl

theorem Group.Safe.removesWell (h : g.Coherent) (hsafe : g.Safe w guid method) :
    g.RemovesWell w guid method := by
  rcases hsafe.removeMember h with ⟨g', heq, -, hmembers⟩ | heq
  · refine ⟨fun g'' hg'' => ?_, ?_⟩
    · rw [heq] at hg''
      rw [← some.inj hg'', hmembers]
    rw [heq]
    simp
  refine ⟨fun g'' hg'' => ?_, ?_⟩
  · rw [heq] at hg''
    exact absurd hg'' (by simp)
  rw [heq]
  simp

/-! ### A run -/

def Inv (s : State) : Prop := ∀ g ∈ s.group, g.Coherent

/-- **Every regular request** leaves a group that is led, or none. -/
theorem Inv.step {s : State} {r : Request} (h : Inv s) (hreg : Regular s r) :
    Inv (Groups.step s r) := by
  cases r with
  | create kind leader =>
    unfold Groups.step
    cases hgroup : s.group with
    | some g => exact h
    | none =>
      intro g hg
      dsimp only at hg
      split at hg
      · rw [← some.inj hg]
        exact coherent_create kind leader
      · exact absurd hg (by simp)
  | addMember player =>
    intro g hg
    obtain ⟨g0, hg0, rfl⟩ := map_eq_some_iff.mp hg
    exact (h g0 hg0).addMember (hreg g0 hg0)
  | removeMember guid method =>
    intro g hg
    obtain ⟨g0, hg0, hg⟩ := bind_eq_some_iff.mp hg
    rcases (hreg g0 hg0).removeMember (h g0 hg0) with ⟨g', heq, hcoh, -⟩ | heq
    · rw [heq] at hg
      rw [← some.inj hg]
      exact hcoh
    rw [heq] at hg
    exact absurd hg (by simp)
  | changeLeader guid =>
    intro g hg
    obtain ⟨g0, hg0, rfl⟩ := map_eq_some_iff.mp hg
    exact (h g0 hg0).changeLeader s.world guid
  | logIn guid =>
    intro g hg
    obtain ⟨g0, hg0, rfl⟩ := map_eq_some_iff.mp hg
    split
    · exact ⟨(h g0 hg0).distinct, (h g0 hg0).led⟩
    · exact h g0 hg0
  | logOut guid =>
    intro g hg
    obtain ⟨g0, hg0, rfl⟩ := map_eq_some_iff.mp hg
    exact ⟨(h g0 hg0).distinct, (h g0 hg0).led⟩
  | surroundings w => exact h

/-- **Leadership and disband.**  In every run in which nobody is added twice, some member
is in the world to take over from a leader who goes, and enough players stay linked when a
member is taken out, a group that exists has distinct members with its leader among them,
and `RemoveMember` leaves the others and answers `false` exactly when it disbanded the
group. -/
theorem led_of_regular (w : World) (rs : List Request)
    (h : Along step Regular ⟨none, w⟩ rs) : Along step StepWell ⟨none, w⟩ rs := by
  refine Along.of_invariant (I := Inv) (fun _ _ hI hr => hI.step hr) (fun s r hI hr => ?_)
    (fun g hg => absurd hg (by simp)) h
  refine ⟨fun g hg => hI.step hr g hg, fun g guid method hg heq => ?_⟩
  subst heq
  exact (hr g hg).removesWell (hI g hg)

def allFound : World := ⟨fun _ => true, fun _ => true, fun _ => 0, 0⟩

/-- Only the player 1 is in the world; the others are on their way to another map. -/
def oneFound : World := ⟨fun guid => guid == 1, fun _ => true, fun _ => 0, 0⟩

/-- A party of four: the leader hands over and logs out, and comes back; the new leader
leaves, and another, which leaves two; with the next the party is over. -/
def someRequests : List Request :=
  [.create ⟨false, false, false, false⟩ 1, .addMember 2, .addMember 3, .addMember 4,
    .changeLeader 2, .logOut 1, .changeLeader 1, .logIn 1, .removeMember 2 .leave,
    .removeMember 4 .kick, .removeMember 3 .leave]

theorem led_of_regular_some : Along step Regular ⟨none, allFound⟩ someRequests ∧
      Along step StepWell ⟨none, allFound⟩ someRequests :=
  have h : Along step Regular ⟨none, allFound⟩ someRequests := by decide +kernel
  ⟨h, led_of_regular allFound someRequests h⟩

/-- The raid of one side of a battleground: one of two players logs out. -/
def bgRaid : List Request := [.create ⟨false, true, false, false⟩ 1, .addMember 2, .logOut 2]

/-- A party of four, three of whom are on their way to another map. -/
def onTheWay : List Request :=
  [.create ⟨false, false, false, false⟩ 1, .addMember 2, .addMember 3, .addMember 4,
    .surroundings oneFound]

/-- **Gone without a word, and led from outside.**  When the last player of the
battleground's raid who is online leaves, the raid is disbanded and the answer is `true`;
when the leader of the party leaves, it is still led by him. -/
theorem disbanded_unsaid : (∃ g, (bgRaid.foldl step ⟨none, allFound⟩).group = some g ∧
      g.removeMember (bgRaid.foldl step ⟨none, allFound⟩).world 1 .default = (true, none)) ∧
      ∃ g, ((onTheWay ++ [Request.removeMember 1 .leave]).foldl step ⟨none, allFound⟩).group = some g ∧
        g.leaderGuid ∉ g.members := by
  refine ⟨⟨⟨⟨false, true, false, true⟩, [⟨1, 0⟩, ⟨2, 0⟩], [1],
    some [2, 0, 0, 0, 0, 0, 0, 0], 1⟩, ?_, ?_⟩, ⟨⟨false, false, false, false⟩,
    [⟨2, 0⟩, ⟨3, 0⟩, ⟨4, 0⟩], [4, 3, 2], none, 1⟩, ?_, ?_⟩
  · decide +kernel
  · decide +kernel
  · decide +kernel
  · decide

end ZerosCore.Groups
