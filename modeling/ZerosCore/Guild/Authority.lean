/-
# Who a guild member may promote, demote or remove

`HandleRemoveMember`, `HandleUpdateMemberRank` and `HandleSetMemberRank`
(`src/server/game/Guilds/Guild.cpp`), behind `CMSG_GUILD_REMOVE`,
`CMSG_GUILD_PROMOTE`, `CMSG_GUILD_DEMOTE` and `CMSG_GUILD_ASSIGN_MEMBER_RANK`.

The first two compare the rank of the target with the rank `r` of the sender;
`HandleSetMemberRank` compares neither the target's rank nor the rank it is
asked to assign, so a member with the right to promote makes anybody anything,
the guild master included (`setMemberRank_throne`).  `lawful_iff` says for every
guild and every request when the request stays below `r`.
-/

import ZerosCore.Guild.Basic
import ZerosCore.Lib.Run

namespace ZerosCore.Guild

open Lib Option Keyed.Table State

/-- A request about another member, its guid and rank as the client sends them. -/
inductive Request where
  | promote (guid : UInt64)
  | demote (guid : UInt64)
  | assign (guid : UInt64) (rank : UInt32)
  | remove (guid : UInt64)

def State.handle (g : State) (player : UInt32) : Request → Status
  | .promote guid => g.handleUpdateMemberRank player guid false
  | .demote guid => g.handleUpdateMemberRank player guid true
  | .assign guid rank => g.handleSetMemberRank player guid rank
  | .remove guid => g.handleRemoveMember player guid

/-- What rank `r` may do to one member, found as `before` in `g` and as `after`
when the request is done: leave its rank alone, move it between existing ranks
below `r`, or remove it from below `r`. -/
def LawfulChange (g : State) (r : UInt8) : Option Member → Option Member → Prop
  | some m, some m' =>
    m'.rankId = m.rankId ∨ (r < m.rankId ∧ r < m'.rankId ∧ m'.rankId < g.getRanksSize)
  | some m, none => r < m.rankId
  | none, some _ => False
  | none, none => True

/-- What rank `r` may do to a guild. -/
def Lawful (g : State) (r : UInt8) : Status → Prop
  | .live g' => ∀ k, LawfulChange g r (g.members.get? k) (g'.members.get? k)
  | .disbanded => ∀ m ∈ g.members.rows, r < m.rankId
  | .crashed => True

/-- When a request of `me` stays below the rank of `me`.  A promotion does unless
the sender's rank is `255` (where the bound `r + 1` wraps to `0`) or the target
lies beyond the ranks, a demotion does in a guild with ranks, an assignment does
when it moves a member below `r` to an existing rank below `r`, and a removal
does unless it hands the leadership to somebody who is not a guild master. -/
def StaysBelow (g : State) (me : Member) : Request → Prop
  | .promote guid => ∀ m, g.getMember guid = some m →
      g.hasRankRight me.lowguid grRightPromote → m.lowguid ≠ me.lowguid →
      ¬ m.isRankNotLower (me.rankId + 1) → me.rankId ≠ 255 ∧ m.rankId ≤ g.getRanksSize
  | .demote guid => ∀ m, g.getMember guid = some m →
      g.hasRankRight me.lowguid grRightDemote → m.lowguid ≠ me.lowguid →
      ¬ m.isRankNotLower me.rankId → m.rankId < g.getLowestRankId → g.getRanksSize ≠ 0
  | .assign guid rank => ∀ m, g.getMember guid = some m → g.hasRankRight me.lowguid
        (if rank > m.rankId.toUInt32 then grRightDemote else grRightPromote) →
      m.lowguid ≠ me.lowguid →
      rank.toUInt8 = m.rankId ∨
        (me.rankId < m.rankId ∧ me.rankId < rank.toUInt8 ∧ rank.toUInt8 < g.getRanksSize)
  | .remove guid => ∀ m, g.getMember guid = some m →
      g.hasRankRight me.lowguid grRightRemove → m.rankId ≠ grGuildmaster →
      ¬ m.isRankNotLower me.rankId → playerGuid g.leader = guid →
      ∃ m' ∈ g.members.rows, m'.lowguid ≠ m.lowguid ∧ m'.rankId = grGuildmaster

variable {g : State} {r : UInt8} {m me : Member}

theorem lawfulChange_refl (o : Option Member) : LawfulChange g r o o := by
  cases o <;> simp [LawfulChange]

theorem lawful_live_self : Lawful g r (.live g) := fun _ => lawfulChange_refl _

variable {low : UInt32}

/-- **Changing one member is lawful exactly when that change is.** -/
theorem lawful_at {g' : State} {after : Option Member}
    (hget : ∀ k, g'.members.get? k = if k = low then after else g.members.get? k) :
    Lawful g r (.live g') ↔ LawfulChange g r (g.members.get? low) after := by
  constructor
  · intro h
    have hlow := h low
    rwa [hget, if_pos rfl] at hlow
  intro h k
  rw [hget]
  by_cases hk : k = low
  · rwa [if_pos hk, hk]
  rw [if_neg hk]
  exact lawfulChange_refl _

theorem lawful_changeRankOf (hm : g.members.get? low = some m) (newRank : UInt8) :
    Lawful g r (.live (g.changeRankOf low newRank)) ↔
      newRank = m.rankId ∨ (r < m.rankId ∧ r < newRank ∧ newRank < g.getRanksSize) := by
  have hget (k : UInt32) : (g.changeRankOf low newRank).members.get? k =
      if k = low then some (m.changeRank newRank) else g.members.get? k := by
    refine (g.members.get?_changeRankOf low k newRank).trans ?_
    split_ifs with hk
    · rw [hk, hm, map_some]
    · rfl
  rw [lawful_at hget, hm]
  rfl

theorem lawful_erase (hm : g.members.get? low = some m) :
    Lawful g r (.live { g with members := g.members.erase low }) ↔ r < m.rankId := by
  rw [lawful_at fun _ => get?_erase _, hm]
  rfl

/-! ### Each request -/

theorem lawful_promote (hme : g.members.get? me.lowguid = some me) (guid : UInt64) :
    Lawful g me.rankId (g.handle me.lowguid (.promote guid)) ↔ StaysBelow g me (.promote guid) := by
  simp only [handle, handleUpdateMemberRank, StaysBelow, Bool.false_eq_true, if_false]
  cases hm : g.getMember guid with
  | none => simp [lawful_live_self]
  | some m =>
    by_cases hr : g.hasRankRight me.lowguid grRightPromote
    · by_cases hs : m.lowguid = me.lowguid
      · simp [hr, hs, lawful_live_self]
      by_cases hn : m.isRankNotLower (me.rankId + 1)
      · simp [hr, hs, hme, hn, lawful_live_self]
      have hget : g.members.get? m.lowguid = some m :=
        get?_eq_some.mpr ⟨(get?_eq_some.mp hm).1, rfl⟩
      simp only [hr, hs, hme, hn, Bool.not_true, Bool.false_eq_true, if_false,
        lawful_changeRankOf hget, some.injEq, forall_eq', ne_eq, not_false_eq_true,
        forall_true_left]
      have hlt : me.rankId + 1 < m.rankId := by simpa [Member.isRankNotLower] using hn
      grind
    · simp [hr, lawful_live_self]

theorem lawful_demote (hme : g.members.get? me.lowguid = some me) (guid : UInt64) :
    Lawful g me.rankId (g.handle me.lowguid (.demote guid)) ↔ StaysBelow g me (.demote guid) := by
  simp only [handle, handleUpdateMemberRank, StaysBelow, if_true]
  cases hm : g.getMember guid with
  | none => simp [lawful_live_self]
  | some m =>
    by_cases hr : g.hasRankRight me.lowguid grRightDemote
    · by_cases hs : m.lowguid = me.lowguid
      · simp [hr, hs, lawful_live_self]
      by_cases hn : m.isRankNotLower me.rankId
      · simp [hr, hs, hme, hn, lawful_live_self]
      by_cases hl : g.getLowestRankId ≤ m.rankId
      · simp [hr, hs, hme, hn, hl, lawful_live_self]
      have hget : g.members.get? m.lowguid = some m :=
        get?_eq_some.mpr ⟨(get?_eq_some.mp hm).1, rfl⟩
      simp only [hr, hs, hme, hn, hl, Bool.not_true, Bool.false_eq_true, if_false,
        lawful_changeRankOf hget, some.injEq, forall_eq', ne_eq,
        not_false_eq_true, forall_true_left]
      have hlt : me.rankId < m.rankId := by simpa [Member.isRankNotLower] using hn
      have hlow : g.getLowestRankId = g.getRanksSize - 1 := rfl
      grind
    · simp [hr, lawful_live_self]

theorem lawful_assign (guid : UInt64) (rank : UInt32) :
    Lawful g me.rankId (g.handle me.lowguid (.assign guid rank)) ↔
      StaysBelow g me (.assign guid rank) := by
  simp only [handle, handleSetMemberRank, StaysBelow]
  cases hm : g.getMember guid with
  | none => simp [Lawful]
  | some m =>
    have hget : g.members.get? m.lowguid = some m := get?_eq_some.mpr ⟨(get?_eq_some.mp hm).1, rfl⟩
    by_cases hr : g.hasRankRight me.lowguid
        (if rank > m.rankId.toUInt32 then grRightDemote else grRightPromote)
    · by_cases hs : m.lowguid = me.lowguid
      · simp [hs, lawful_live_self]
      simp only [hr, hs, Bool.not_true, Bool.false_eq_true, if_false,
        lawful_changeRankOf hget, some.injEq, forall_eq', ne_eq, not_false_eq_true,
        forall_true_left]
    · simp [hr, lawful_live_self]

/-- A guild master removed by somebody below hands over the leadership: lawful
exactly when the heir is a guild master already. -/
theorem lawful_deleteMember_leader (hme : g.members.get? me.lowguid = some me)
    (hlow : me.lowguid ≠ g.leader) (hm : g.members.get? g.leader = some m)
    (hlt : me.rankId < m.rankId) : Lawful g me.rankId (g.deleteMember (playerGuid g.leader)) ↔
      ∃ m' ∈ g.members.rows, m'.lowguid ≠ g.leader ∧ m'.rankId = grGuildmaster := by
  have hlo : guidLopart (playerGuid g.leader) = g.leader := UInt32.toUInt32_toUInt64 _
  have hmem := (get?_eq_some.mp hme).1
  simp only [deleteMember, if_true, hlo]
  cases hn : newLeaderFrom g.leader none g.members.rows with
  | none => exact absurd ((newLeaderFrom_eq_none hn).2 me hmem) hlow
  | some heir =>
    obtain ⟨hh, hmin, -⟩ := newLeaderFrom_eq_some hn
    obtain ⟨hheir, hne⟩ := hh.resolve_left (by simp)
    have hget : g.members.get? heir.lowguid = some heir := get?_eq_some.mpr ⟨hheir, rfl⟩
    have hafter (k : UInt32) : ((g.setLeaderGuid heir).members.erase g.leader).get? k =
        if k = g.leader then none
        else if k = heir.lowguid then (g.members.get? k).map (Member.changeRank grGuildmaster)
        else g.members.get? k := by
      rw [get?_erase]
      simp only [setLeaderGuid, changeRankOf, Members.get?_changeRankOf]
    constructor
    · intro h
      have hk := h heir.lowguid
      simp only [hafter, if_neg hne, if_true, hget, map_some] at hk
      refine ⟨heir, hheir, hne, ?_⟩
      rcases hk with hk | ⟨-, hk, -⟩
      · exact hk.symm
      · exact absurd hk (by simp [grGuildmaster])
    rintro ⟨m', hm', hne', hr'⟩ k
    have hzero : heir.rankId = grGuildmaster := by
      have := hmin m' hm' hne'
      rw [hr'] at this
      simpa [grGuildmaster] using this
    simp only [hafter]
    split_ifs with h1 h2
    · subst h1
      rw [hm]
      exact hlt
    · subst h2
      rw [hget]
      exact .inl hzero.symm
    · exact lawfulChange_refl _

theorem lawful_remove (hme : g.members.get? me.lowguid = some me)
    (hlead : ¬ g.isLeader me.lowguid) (guid : UInt64) :
    Lawful g me.rankId (g.handle me.lowguid (.remove guid)) ↔ StaysBelow g me (.remove guid) := by
  simp only [handle, handleRemoveMember, StaysBelow]
  cases hm : g.getMember guid with
  | none => simp [lawful_live_self]
  | some m =>
    by_cases hr : g.hasRankRight me.lowguid grRightRemove
    · by_cases h0 : m.rankId = grGuildmaster
      · simp [hr, h0, lawful_live_self]
      by_cases hn : m.isRankNotLower me.rankId
      · simp [hr, h0, hme, hn, lawful_live_self]
      have hlt : me.rankId < m.rankId := by simpa [Member.isRankNotLower] using hn
      simp only [hr, h0, hme, hn, Bool.not_true, Bool.false_eq_true, if_false,
        some.injEq, forall_eq', ne_eq, not_false_eq_true, forall_true_left]
      by_cases hg : playerGuid g.leader = guid
      · subst hg
        have hlo : guidLopart (playerGuid g.leader) = g.leader := UInt32.toUInt32_toUInt64 _
        have hm' : g.members.get? g.leader = some m := hlo ▸ hm
        have hne : me.lowguid ≠ g.leader := by
          intro h
          simp [isLeader, h] at hlead
        rw [lawful_deleteMember_leader hme hne hm' hlt, (get?_eq_some.mp hm').2]
        simp
      simp only [deleteMember, hg, if_false, false_imp_iff, iff_true]
      exact (lawful_erase hm).mpr hlt
    · simp [hr, lawful_live_self]

/-- **When a request stays below the sender.**  For every guild, every member who
is not its guild master and every request. -/
theorem lawful_iff (hme : g.members.get? me.lowguid = some me)
    (hlead : ¬ g.isLeader me.lowguid) (q : Request) :
    Lawful g me.rankId (g.handle me.lowguid q) ↔ StaysBelow g me q := by
  cases q with
  | promote guid => exact lawful_promote hme guid
  | demote guid => exact lawful_demote hme guid
  | assign guid rank => exact lawful_assign guid rank
  | remove guid => exact lawful_remove hme hlead guid

/-! ### Sequences of requests -/

/-- One request after another, each by the player it names; nothing happens to a
guild that is gone. -/
def Status.step : Status → UInt32 × Request → Status
  | .live g, (player, q) => g.handle player q
  | s, _ => s

/-- The request comes from a member who is not guild master and stays below it. -/
def ByNonLeader (s : Status) (a : UInt32 × Request) : Prop :=
  ∀ g, s = .live g → ¬ g.isLeader a.1 ∧ ∃ me, g.members.get? a.1 = some me ∧ StaysBelow g me a.2

/-- Every guild master of `s` was one in `g`. -/
def NoNewGuildmaster (g : State) (s : Status) : Prop :=
  ∀ g', s = .live g' → ∀ k m', g'.members.get? k = some m' → m'.rankId = grGuildmaster →
    ∃ m, g.members.get? k = some m ∧ m.rankId = grGuildmaster

theorem LawfulChange.guildmaster {o : Option Member} {m' : Member}
    (h : LawfulChange g r o (some m')) (h0 : m'.rankId = grGuildmaster) :
    ∃ m, o = some m ∧ m.rankId = grGuildmaster := by
  cases o with
  | none => exact h.elim
  | some m =>
    refine ⟨m, rfl, ?_⟩
    rcases h with h | ⟨-, h, -⟩
    · rw [← h, h0]
    rw [h0] at h
    simp [grGuildmaster] at h

theorem noNewGuildmaster_step {s : Status} {a : UInt32 × Request}
    (hs : NoNewGuildmaster g s) (ha : ByNonLeader s a) : NoNewGuildmaster g (s.step a) := by
  cases s with
  | live g1 =>
    obtain ⟨player, q⟩ := a
    obtain ⟨hlead, me, hme, hq⟩ := ha g1 rfl
    obtain rfl : me.lowguid = player := (get?_eq_some.mp hme).2
    have hlawful := (lawful_iff hme hlead q).mpr hq
    intro g' hg' k m' hm' h0
    rw [show g1.handle me.lowguid q = .live g' from hg'] at hlawful
    have hk := hlawful k
    rw [hm'] at hk
    obtain ⟨m, hm, hm0⟩ := hk.guildmaster h0
    exact hs g1 rfl k m hm hm0
  | disbanded | crashed => exact hs

/-- **Authority in a guild.**  A request of a member who is not guild master
touches only members below the sender, and assigns only ranks below the sender,
exactly when it `StaysBelow`; and a sequence of such requests makes nobody guild
master. -/
theorem requests_stay_below_iff (g : State) :
    (∀ (me : Member) (q : Request), g.members.get? me.lowguid = some me → ¬ g.isLeader me.lowguid →
      (Lawful g me.rankId (g.handle me.lowguid q) ↔ StaysBelow g me q)) ∧
    ∀ as : List (UInt32 × Request), Along Status.step ByNonLeader (.live g) as →
      NoNewGuildmaster g (as.foldl Status.step (.live g)) := by
  refine ⟨fun me q hme hlead => lawful_iff hme hlead q, fun as h => ?_⟩
  have hstart : NoNewGuildmaster g (.live g) := by
    intro g' hg' k m' hm' h0
    obtain rfl := Status.live.inj hg'
    exact ⟨m', hm', h0⟩
  exact Along.invariant_foldl (fun _ _ => noNewGuildmaster_step) hstart h

/-- The guild master `1`, an officer `2` and an initiate `3` in a guild with the
default ranks. -/
def guildOfThree : State :=
  let g : Option State := do
    let g ← State.create 1 (fun _ => "") { name := "Master" }
    let g ← g.addMember 2 grOfficer { name := "Officer" }
    g.addMember 3 guildRankNone { name := "Initiate" }
  g.getD { leader := 0, ranks := [], members := .empty _ }

/-- The officer promotes the initiate twice, up to the rank below its own, and is
refused the third time. -/
theorem requests_stay_below_guildOfThree :
    Lawful guildOfThree 1 (guildOfThree.handle 2 (.promote 3)) ∧ NoNewGuildmaster guildOfThree
        ([(2, .promote 3), (2, .promote 3), (2, .promote 3)].foldl Status.step
          (.live guildOfThree)) := by
  have hstays (g : State) (me : Member) (hr : me.rankId ≠ 255)
      (hm : ∀ m, g.getMember 3 = some m → m.rankId ≤ g.getRanksSize) :
      StaysBelow g me (.promote 3) := fun m h _ _ _ => ⟨hr, hm m h⟩
  constructor
  · exact ((requests_stay_below_iff guildOfThree).1 ⟨2, "Officer", 1⟩ (.promote 3) (by decide)
      (by decide)).mpr (hstays _ _ (by decide) (by decide))
  refine (requests_stay_below_iff guildOfThree).2 _ ⟨?_, ?_, ?_, trivial⟩ <;>
  · rintro g ⟨⟩
    exact ⟨by decide, ⟨2, "Officer", 1⟩, by decide, hstays _ _ (by decide) (by decide)⟩

/-- **An officer makes a guild master.**  `CMSG_GUILD_ASSIGN_MEMBER_RANK` with rank
`0`: the officer, of rank `1` and no guild master, makes the initiate, of rank
`4`, a guild master. -/
theorem setMemberRank_throne : (¬ guildOfThree.isLeader 2 ∧
      (guildOfThree.members.get? 3).map Member.rankId = some 4 ∧
      guildOfThree.handle 2 (.assign 3 0) = .live (guildOfThree.changeRankOf 3 0) ∧
      ((guildOfThree.changeRankOf 3 0).members.get? 3).map Member.rankId = some 0) ∧
    ¬ ∀ (g : State) (me : Member) (q : Request), g.members.get? me.lowguid = some me →
      ¬ g.isLeader me.lowguid → Lawful g me.rankId (g.handle me.lowguid q) := by
  refine ⟨by decide, fun h => ?_⟩
  have hk : LawfulChange guildOfThree 1 (some ⟨3, "Initiate", 4⟩) (some ⟨3, "Initiate", 0⟩) :=
    h guildOfThree ⟨2, "Officer", 1⟩ (.assign 3 0) (by decide) (by decide) 3
  rcases hk with hk | ⟨-, hk, -⟩ <;> exact absurd hk (by decide)

end ZerosCore.Guild
