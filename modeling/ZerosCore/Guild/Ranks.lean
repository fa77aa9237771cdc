/-
# The ranks of a guild over its whole life

`Guild::Validate` states the invariant in its comments: ranks are a sequence
from `0`, without gaps, and the leader is a member who is guild master.  This
module follows that invariant (`WellRanked`) from `Guild::Create` and from
`Validate` through every operation on ranks and members
(`src/server/game/Guilds/Guild.cpp`).

Four operations can break it, each in its own way: `HandleRemoveRank` shifts
the ranks behind the removed one without renumbering them or their members,
`HandleSetNewGuildMaster` sends the old guild master to `GR_INITIATE` whether or
not that rank is there (or is the guild master just named), `HandleSetMemberRank`
and `AddMember` take any rank they are given.  `Validate` compares members with
`>` where it needs `>=`.  `KeepsRanks` is what a request has to meet.
-/

import ZerosCore.Guild.Basic
import ZerosCore.Lib.Run

namespace ZerosCore.Guild

open Lib List Option Keyed.Table State

/-! ### The invariant -/

/-- The `i`-th rank has id `i`. -/
def IdsInOrder (ranks : List RankInfo) : Prop :=
  ∀ (i : ℕ) (r : RankInfo), ranks[i]? = some r → r.rankId.toNat = i

/-- The ranks are numbered by position, and every member's rank is one of them. -/
structure Ranked (g : State) : Prop where
  ids : IdsInOrder g.ranks
  below : ∀ m ∈ g.members.rows, m.rankId.toNat < g.ranks.length

/-- The leader is a member whose rank is `GR_GUILDMASTER`. -/
def Led (g : State) : Prop :=
  ∃ m, g.members.get? g.leader = some m ∧ m.rankId = grGuildmaster

/-- The structure of ranks, members and leadership. -/
def WellRanked (g : State) : Prop := Ranked g ∧ Led g

/-- `WellRanked`, with the bound on the number of ranks that keeps
`_GetRanksSize` from wrapping. -/
def Sound (g : State) : Prop := WellRanked g ∧ g.ranks.length ≤ 10

/-- A property of the guild an operation leaves, if it leaves one. -/
def Status.Holds (P : State → Prop) : Status → Prop
  | .live g => P g
  | _ => True

@[simp] theorem Status.holds_live (P : State → Prop) (g : State) :
    (Status.live g).Holds P ↔ P g := Iff.rfl

/-! ### Operations -/

/-- The operations on ranks and members, with what they are given. -/
inductive Op where
  | addNewRank (player : UInt32) (name : String)
  | removeRank (player : UInt32) (rankId : UInt8)
  | setRankInfo (player : UInt32) (rankId : UInt8) (name : String) (rights moneyPerDay : UInt32)
      (rightsAndSlots : List BankRightsAndSlots)
  | updateMemberRank (player : UInt32) (guid : UInt64) (demote : Bool)
  | setMemberRank (player : UInt32) (guid : UInt64) (rank : UInt32)
  | setNewGuildMaster (player : UInt32) (name : String)
  | addMember (low : UInt32) (rankId : UInt8) (joiner : State.Joiner)
  | deleteMember (guid : UInt64)

/-- One operation. -/
def State.run (g : State) : Op → Status
  | .addNewRank player name => .live (g.handleAddNewRank player name)
  | .removeRank player rankId => .live (g.handleRemoveRank player rankId)
  | .setRankInfo player rankId name rights money tabs =>
    .live (g.handleSetRankInfo player rankId name rights money tabs)
  | .updateMemberRank player guid demote => g.handleUpdateMemberRank player guid demote
  | .setMemberRank player guid rank => g.handleSetMemberRank player guid rank
  | .setNewGuildMaster player name => .live (g.handleSetNewGuildMaster player name)
  | .addMember low rankId joiner => .live ((g.addMember low rankId joiner).getD g)
  | .deleteMember guid => g.deleteMember guid

/-- Operations one after another; nothing happens to a guild that is gone. -/
def Status.run : Status → Op → Status
  | .live g, op => g.run op
  | s, _ => s

/-- What an operation has to meet, where its own checks let it through.  A
removed rank is the last one and nobody's; the guild master who steps down finds
`GR_INITIATE` and names somebody else; an assigned rank exists, and the leader's
is not taken away; a new member's rank exists; and a deleted guid is the
leader's in all 64 bits or in none. -/
def KeepsRanks (g : State) : Op → Prop
  | .addNewRank _ _ => True
  | .removeRank player rankId =>
    guildRanksMinCount < g.getRanksSize → rankId < g.getRanksSize → g.isLeader player →
    rankId = g.getLowestRankId ∧ ∀ m ∈ g.members.rows, m.rankId ≠ rankId
  | .setRankInfo _ _ _ _ _ _ => True
  | .updateMemberRank _ _ _ => True
  | .setMemberRank player guid rank => ∀ m, g.getMember guid = some m → g.hasRankRight player
        (if rank > m.rankId.toUInt32 then grRightDemote else grRightPromote) →
      m.lowguid ≠ player →
      rank.toUInt8.toNat < g.ranks.length ∧ (m.lowguid = g.leader → rank.toUInt8 = grGuildmaster)
  | .setNewGuildMaster player name => ∀ m, g.isLeader player → g.getMemberByName name = some m →
      grInitiate.toNat < g.ranks.length ∧ m.lowguid ≠ player
  | .addMember _ rankId _ => rankId = guildRankNone ∨ rankId.toNat < g.ranks.length
  | .deleteMember guid => guidLopart guid = g.leader → guid = playerGuid g.leader

variable {g : State} {m : Member} {low player : UInt32}

/-! ### The parts of a guild -/

theorem Sound.ranksSize (h : g.ranks.length ≤ 10) : g.getRanksSize.toNat = g.ranks.length := by
  simp only [getRanksSize, Nat.toUInt8, UInt8.toNat_ofNat']
  omega

theorem Ranked.length_pos (h : Ranked g) (hm : m ∈ g.members.rows) : 0 < g.ranks.length :=
  Nat.zero_lt_of_lt (h.below m hm)

theorem Sound.length_pos (h : Sound g) : 0 < g.ranks.length := by
  obtain ⟨m, hm, -⟩ := h.1.2
  exact h.1.1.length_pos (get?_eq_some.mp hm).1

theorem Sound.lowestRankId (h : Sound g) : g.getLowestRankId.toNat = g.ranks.length - 1 := by
  have hpos := h.length_pos
  have hle := h.2
  simp only [getLowestRankId, Nat.toUInt8, UInt8.toNat_sub, UInt8.toNat_ofNat']
  simp
  omega

variable {newRank : UInt8}

theorem mem_changeRankOf (h : m ∈ (g.changeRankOf low newRank).members.rows) :
    (m ∈ g.members.rows ∧ m.lowguid ≠ low) ∨
      ∃ m' ∈ g.members.rows, m'.lowguid = low ∧ m = m'.changeRank newRank := by
  have hget := get?_eq_some.mpr ⟨h, rfl⟩
  rw [show (g.changeRankOf low newRank).members = g.members.changeRankOf low newRank from rfl,
    Members.get?_changeRankOf] at hget
  by_cases hk : m.lowguid = low
  · rw [if_pos hk, map_eq_some_iff] at hget
    obtain ⟨m', hm', rfl⟩ := hget
    exact .inr ⟨m', (get?_eq_some.mp hm').1, hk, rfl⟩
  rw [if_neg hk] at hget
  exact .inl ⟨(get?_eq_some.mp hget).1, hk⟩

theorem Ranked.changeRankOf (h : Ranked g)
    (hr : newRank.toNat < g.ranks.length) : Ranked (g.changeRankOf low newRank) where
  ids := h.ids
  below m hm := by
    rcases mem_changeRankOf hm with ⟨hm, -⟩ | ⟨m', -, -, rfl⟩
    · exact h.below m hm
    · exact hr

theorem Led.changeRankOf (h : Led g)
    (hr : low = g.leader → newRank = grGuildmaster) : Led (g.changeRankOf low newRank) := by
  obtain ⟨m, hm, h0⟩ := h
  unfold Led State.changeRankOf
  simp only [Members.get?_changeRankOf]
  by_cases hk : g.leader = low
  · rw [if_pos hk, hm]
    exact ⟨_, rfl, hr hk.symm⟩
  rw [if_neg hk]
  exact ⟨m, hm, h0⟩

theorem Sound.changeRankOf (h : Sound g) (hr : newRank.toNat < g.ranks.length)
    (hl : low = g.leader → newRank = grGuildmaster) : Sound (g.changeRankOf low newRank) :=
  ⟨⟨h.1.1.changeRankOf hr, h.1.2.changeRankOf hl⟩, h.2⟩

/-- **`_SetLeaderGUID` restores leadership**, whoever led before. -/
theorem wellRanked_setLeaderGuid (h : Ranked g) (hm : m ∈ g.members.rows) :
    WellRanked (g.setLeaderGuid m) := by
  have hr : Ranked (g.changeRankOf m.lowguid grGuildmaster) := h.changeRankOf (h.length_pos hm)
  refine ⟨⟨hr.ids, hr.below⟩, m.changeRank grGuildmaster, ?_, rfl⟩
  have hget : g.members.get? m.lowguid = some m := get?_eq_some.mpr ⟨hm, rfl⟩
  simp [setLeaderGuid, changeRankOf, Members.get?_changeRankOf, hget]

theorem mem_erase (h : m ∈ (g.members.erase low).rows) : m ∈ g.members.rows ∧ m.lowguid ≠ low := by
  have hget := get?_eq_some.mpr ⟨h, rfl⟩
  rw [get?_erase] at hget
  by_cases hk : m.lowguid = low
  · simp [hk] at hget
  rw [if_neg hk] at hget
  exact ⟨(get?_eq_some.mp hget).1, hk⟩

theorem WellRanked.erase (h : WellRanked g) (hl : low ≠ g.leader) :
    WellRanked { g with members := g.members.erase low } := by
  refine ⟨⟨h.1.ids, fun m hm => h.1.below m (mem_erase hm).1⟩, ?_⟩
  obtain ⟨m, hm, h0⟩ := h.2
  refine ⟨m, ?_, h0⟩
  rw [get?_erase, if_neg hl.symm]
  exact hm

/-! ### Ranks -/

variable {ranks : List RankInfo}

theorem IdsInOrder.append {r : RankInfo} (h : IdsInOrder ranks)
    (hr : r.rankId.toNat = ranks.length) : IdsInOrder (ranks ++ [r]) := by
  intro i r' hi
  rcases Nat.lt_trichotomy i ranks.length with hlt | rfl | hgt
  · rw [getElem?_append_left hlt] at hi
    exact h i r' hi
  · rw [getElem?_append_right (Nat.le_refl _)] at hi
    simp only [Nat.sub_self, getElem?_cons_zero, some.injEq] at hi
    rw [← hi, hr]
  rw [getElem?_eq_none (by simp; omega)] at hi
  simp at hi

theorem IdsInOrder.set {n : ℕ} {r r' : RankInfo} (h : IdsInOrder ranks)
    (hn : ranks[n]? = some r) (hr : r'.rankId = r.rankId) : IdsInOrder (ranks.set n r') := by
  intro i r'' hi
  rw [getElem?_set] at hi
  split_ifs at hi with hin hlt
  · obtain rfl := some.inj hi
    rw [hr, h n r hn, hin]
  · exact h i r'' hi

theorem IdsInOrder.dropLast (h : IdsInOrder ranks) : IdsInOrder ranks.dropLast := by
  intro i r hi
  refine h i r ?_
  rw [getElem?_dropLast] at hi
  split_ifs at hi
  exact hi

theorem createRank_spec (h : IdsInOrder g.ranks) (hle : g.ranks.length ≤ 10) (name : String)
    (rights : UInt32) :
    IdsInOrder (g.createRank name rights).ranks ∧ (g.createRank name rights).ranks.length ≤ 10 ∧
      g.ranks.length ≤ (g.createRank name rights).ranks.length := by
  unfold createRank
  dsimp only
  split_ifs with hsize
  · exact ⟨h, hle, Nat.le_refl _⟩
  have hlt : g.ranks.length < 10 := by
    rw [ge_iff_le, UInt8.le_iff_toNat_le, Sound.ranksSize hle] at hsize
    simpa [guildRanksMaxCount] using hsize
  have hlen : ∀ r : RankInfo, (g.ranks ++ [r]).length = g.ranks.length + 1 := by simp
  exact ⟨h.append (Sound.ranksSize hle), by rw [hlen]; omega, by rw [hlen]; omega⟩

theorem sound_addNewRank (h : Sound g) (name : String) :
    Sound (g.handleAddNewRank player name) := by
  unfold handleAddNewRank
  split_ifs
  · exact h
  · obtain ⟨hids, hle, hge⟩ :=
      createRank_spec h.1.1.ids h.2 name (grRightGchatlisten ||| grRightGchatspeak)
    have hmem : (g.createRank name (grRightGchatlisten ||| grRightGchatspeak)).members = g.members ∧
        (g.createRank name (grRightGchatlisten ||| grRightGchatspeak)).leader = g.leader := by
      unfold createRank
      dsimp only
      split_ifs
      exact ⟨rfl, rfl⟩
    refine ⟨⟨⟨hids, fun m hm => ?_⟩, ?_⟩, hle⟩
    · rw [hmem.1] at hm
      exact Nat.lt_of_lt_of_le (h.1.1.below m hm) hge
    unfold Led
    rw [hmem.1, hmem.2]
    exact h.1.2
  · exact h

variable {rankId : UInt8}

theorem sound_removeRank (h : Sound g)
    (hk : KeepsRanks g (.removeRank player rankId)) : Sound (g.handleRemoveRank player rankId) := by
  unfold handleRemoveRank
  split_ifs with hguard
  · exact h
  simp only [Bool.or_eq_true, decide_eq_true_eq, not_or, UInt8.not_le, ge_iff_le,
    Bool.not_eq_true', Bool.not_eq_false] at hguard
  obtain ⟨⟨hmin, hlt⟩, hlead⟩ := hguard
  obtain ⟨hlast, hfree⟩ := hk hmin hlt hlead
  have hle := h.2
  have hid : rankId.toNat = g.ranks.length - 1 := by rw [hlast, h.lowestRankId]
  have hdrop : g.ranks.eraseIdx rankId.toNat = g.ranks.dropLast := by
    rw [hid, eraseIdx_length_sub_one]
  refine ⟨⟨⟨?_, fun m hm => ?_⟩, h.1.2⟩, ?_⟩
  · simp only [hdrop]
    exact h.1.1.ids.dropLast
  · have hm' := h.1.1.below m hm
    have hne : m.rankId.toNat ≠ rankId.toNat := fun he => hfree m hm (UInt8.toNat_inj.mp he)
    simp only [hdrop, length_dropLast]
    omega
  simp only [hdrop, length_dropLast]
  omega

theorem sound_setRankInfo (h : Sound g) (rankId : UInt8) (name : String)
    (rights money : UInt32) (tabs : List BankRightsAndSlots) :
    Sound (g.handleSetRankInfo player rankId name rights money tabs) := by
  unfold handleSetRankInfo
  split_ifs
  · exact h
  cases hinfo : g.getRankInfo rankId with
  | none => exact h
  | some r =>
    have hget : g.ranks[rankId.toNat]? = some r := by
      unfold getRankInfo at hinfo
      split_ifs at hinfo
      exact hinfo
    have htabs (tabs : List BankRightsAndSlots) (r : RankInfo) :
        (tabs.foldl (fun r b => if b.tabId ≥ g.purchasedTabs then r
          else r.setBankTabSlotsAndRights b) r).rankId = r.rankId := by
      induction tabs generalizing r with
      | nil => rfl
      | cons b tabs ih =>
        rw [foldl_cons, ih]
        split_ifs <;> rfl
    refine ⟨⟨⟨h.1.1.ids.set hget ?_, fun m hm => ?_⟩, h.1.2⟩, ?_⟩
    · rw [htabs]
      rfl
    · simpa using h.1.1.below m hm
    · simpa using h.2

/-! ### Members -/

/-- **What a promotion or demotion can do**: nothing, a crash, or one rank down
or up for a member the sender outranks. -/
theorem handleUpdateMemberRank_cases (g : State) (player : UInt32) (guid : UInt64) (demote : Bool) :
    g.handleUpdateMemberRank player guid demote = .live g ∨
      g.handleUpdateMemberRank player guid demote = .crashed ∨
      ∃ m me, g.getMember guid = some m ∧ g.members.get? player = some me ∧ m.lowguid ≠ player ∧
        (¬ m.isRankNotLower me.rankId ∧ m.rankId < g.getLowestRankId ∧
            g.handleUpdateMemberRank player guid demote =
              .live (g.changeRankOf m.lowguid (m.rankId + 1)) ∨ ¬ m.isRankNotLower (me.rankId + 1) ∧
            g.handleUpdateMemberRank player guid demote =
              .live (g.changeRankOf m.lowguid (m.rankId - 1))) := by
  unfold handleUpdateMemberRank
  by_cases hr : g.hasRankRight player (if demote then grRightDemote else grRightPromote)
  · cases hm : g.getMember guid with
    | none => simp [hr]
    | some m =>
      by_cases hs : m.lowguid = player
      · simp [hr, hs]
      cases hme : g.members.get? player with
      | none => simp [hr, hs]
      | some me =>
        cases demote with
        | true =>
          by_cases hn : m.isRankNotLower me.rankId
          · simp_all
          by_cases hl : g.getLowestRankId ≤ m.rankId
          · simp_all
          exact .inr (.inr ⟨m, me, rfl, rfl, hs, .inl ⟨hn, UInt8.not_le.mp hl, by
            simp_all⟩⟩)
        | false =>
          by_cases hn : m.isRankNotLower (me.rankId + 1)
          · simp_all
          · exact .inr (.inr ⟨m, me, rfl, rfl, hs, .inr ⟨hn, by simp_all⟩⟩)
  · simp [hr]

theorem Led.isRankNotLower (h : Led g) (hm : m ∈ g.members.rows) (hl : m.lowguid = g.leader)
    (r : UInt8) : m.isRankNotLower r := by
  obtain ⟨l, hl', h0⟩ := h
  rw [get?_eq_some.mpr ⟨hm, hl⟩] at hl'
  obtain rfl := some.inj hl'
  simp [Member.isRankNotLower, h0, grGuildmaster]

theorem sound_updateMemberRank (h : Sound g) (guid : UInt64) (demote : Bool) :
    (g.handleUpdateMemberRank player guid demote).Holds Sound := by
  rcases handleUpdateMemberRank_cases g player guid demote with
    heq | heq | ⟨m, me, hm, -, -, ⟨hn, hl, heq⟩ | ⟨hn, heq⟩⟩
  · rw [heq]
    exact h
  · rw [heq]
    trivial
  · rw [heq]
    have hmem := (get?_eq_some.mp hm).1
    refine h.changeRankOf ?_ fun he => absurd (h.1.2.isRankNotLower hmem he _) hn
    rw [UInt8.lt_iff_toNat_lt, h.lowestRankId] at hl
    simp
    omega
  rw [heq]
  have hmem := (get?_eq_some.mp hm).1
  refine h.changeRankOf ?_ fun he => absurd (h.1.2.isRankNotLower hmem he _) hn
  have hbelow := h.1.1.below m hmem
  have hone : (1 : UInt8) ≤ m.rankId := by
    simp only [Member.isRankNotLower, decide_eq_true_eq, UInt8.not_le] at hn
    grind
  rw [UInt8.toNat_sub_of_le _ _ hone]
  omega

theorem sound_setMemberRank (h : Sound g) {guid : UInt64} {rank : UInt32}
    (hk : KeepsRanks g (.setMemberRank player guid rank)) :
    (g.handleSetMemberRank player guid rank).Holds Sound := by
  unfold handleSetMemberRank
  cases hm : g.getMember guid with
  | none => trivial
  | some m =>
    by_cases hr : g.hasRankRight player
        (if rank > m.rankId.toUInt32 then grRightDemote else grRightPromote)
    · by_cases hs : m.lowguid = player
      · simpa [hr, hs] using h
      obtain ⟨hlt, hl⟩ := hk m hm hr hs
      simp only [hr, hs, Bool.not_true, Bool.false_eq_true, if_false]
      exact h.changeRankOf hlt hl
    · simpa [hr] using h

theorem sound_setNewGuildMaster (h : Sound g) {name : String}
    (hk : KeepsRanks g (.setNewGuildMaster player name)) :
    Sound (g.handleSetNewGuildMaster player name) := by
  unfold handleSetNewGuildMaster
  split_ifs with hl
  · exact h
  cases hold : g.members.get? player with
  | none => exact h
  | some old =>
    cases hnew : g.getMemberByName name with
    | none => exact h
    | some new =>
      obtain ⟨hlen, hne⟩ := hk new (by simpa using hl) hnew
      have hmem : new ∈ g.members.rows := mem_of_find?_eq_some hnew
      have hset := wellRanked_setLeaderGuid h.1.1 hmem
      have hself : old.lowguid = player := (get?_eq_some.mp hold).2
      refine Sound.changeRankOf ⟨hset, h.2⟩ hlen fun he => ?_
      exact absurd (hself ▸ he).symm hne

variable {p : State.Joiner}

theorem sound_addMember (h : Sound g)
    (hk : KeepsRanks g (.addMember low rankId p)) : Sound ((g.addMember low rankId p).getD g) := by
  cases hadd : g.addMember low rankId p with
  | none => exact h
  | some g' =>
    obtain ⟨new, hnew, -, hrank, rfl⟩ := addMember_eq_some hadd
    have hlt : new.rankId.toNat < g.ranks.length := by
      have hpos := h.length_pos
      have hlow := h.lowestRankId
      rw [hrank]
      split_ifs with hnone
      · omega
      · exact hk.resolve_left hnone
    refine ⟨⟨⟨h.1.1.ids, fun m hm => ?_⟩, ?_⟩, h.2⟩
    · rcases (Members.mem_insert hnew).mp hm with rfl | hm
      · exact hlt
      · exact h.1.1.below m hm
    obtain ⟨l, hl, h0⟩ := h.1.2
    obtain ⟨hmem, hkey⟩ := get?_eq_some.mp hl
    exact ⟨l, get?_eq_some.mpr ⟨(Members.mem_insert hnew).mpr (.inr hmem), hkey⟩, h0⟩

theorem sound_deleteMember (h : Ranked g) (hle : g.ranks.length ≤ 10) {guid : UInt64}
    (hlead : playerGuid g.leader ≠ guid → Led g ∧ guidLopart guid ≠ g.leader) :
    (g.deleteMember guid).Holds Sound := by
  unfold deleteMember
  dsimp only
  split_ifs with hg
  · cases hn : newLeaderFrom (guidLopart guid) none g.members.rows with
    | none => trivial
    | some heir =>
      obtain ⟨hmem, hne⟩ := (newLeaderFrom_eq_some hn).1.resolve_left (by simp)
      exact ⟨(wellRanked_setLeaderGuid h hmem).erase hne.symm, hle⟩
  obtain ⟨hled, hne⟩ := hlead hg
  exact ⟨WellRanked.erase ⟨h, hled⟩ hne, hle⟩

theorem deleteMember_ranks (g : State) (guid : UInt64) :
    (g.deleteMember guid).Holds fun g' => g'.ranks = g.ranks := by
  unfold deleteMember
  dsimp only
  split_ifs
  · cases newLeaderFrom (guidLopart guid) none g.members.rows with
    | none => trivial
    | some heir => rfl
  · rfl

/-- **One operation** that meets `KeepsRanks` keeps the structure. -/
theorem sound_run (h : Sound g) {op : Op} (hk : KeepsRanks g op) : (g.run op).Holds Sound := by
  cases op with
  | addNewRank player name => exact sound_addNewRank h name
  | removeRank player rankId => exact sound_removeRank h hk
  | setRankInfo player rankId name rights money tabs =>
    exact sound_setRankInfo h rankId name rights money tabs
  | updateMemberRank player guid demote => exact sound_updateMemberRank h guid demote
  | setMemberRank player guid rank => exact sound_setMemberRank h hk
  | setNewGuildMaster player name => exact sound_setNewGuildMaster h hk
  | addMember low rankId joiner => exact sound_addMember h hk
  | deleteMember guid =>
    exact sound_deleteMember h.1.1 h.2 fun hg =>
      ⟨h.1.2, fun hlow => hg (hk hlow).symm⟩

/-! ### Creation and loading -/

theorem createDefaultGuildRanks_spec (g : State) (hg : g.ranks = []) (names : Fin 5 → String) :
    IdsInOrder (g.createDefaultGuildRanks names).ranks ∧
      (g.createDefaultGuildRanks names).ranks.length = 5 ∧
      (g.createDefaultGuildRanks names).members = g.members ∧
      (g.createDefaultGuildRanks names).leader = g.leader := by
  obtain ⟨leader, ranks, members, purchasedTabs⟩ := g
  obtain rfl : ranks = [] := hg
  refine ⟨?_, rfl, rfl, rfl⟩
  let g0 : State := { leader, ranks := [], members, purchasedTabs }
  have hstart : IdsInOrder g0.ranks := fun i r hi => by simp [g0] at hi
  obtain ⟨h1, hle1, -⟩ := createRank_spec hstart (Nat.zero_le 10) (names 0) grRightAll
  obtain ⟨h2, hle2, -⟩ := createRank_spec h1 hle1 (names 1) grRightAll
  obtain ⟨h3, hle3, -⟩ :=
    createRank_spec h2 hle2 (names 2) (grRightGchatlisten ||| grRightGchatspeak)
  obtain ⟨h4, hle4, -⟩ :=
    createRank_spec h3 hle3 (names 3) (grRightGchatlisten ||| grRightGchatspeak)
  exact (createRank_spec h4 hle4 (names 4) (grRightGchatlisten ||| grRightGchatspeak)).1

variable {names : Fin 5 → String}

theorem sound_create {leader : UInt32} (h : create leader names p = some g) : Sound g := by
  obtain ⟨hids, hlen, hmem, hlead⟩ := createDefaultGuildRanks_spec
    { leader, ranks := [], members := .empty _ } rfl names
  obtain ⟨new, hnew, hlow, hrank, rfl⟩ := addMember_eq_some h
  have h0 : new.rankId = grGuildmaster := hrank
  refine ⟨⟨⟨hids, fun m hm => ?_⟩, new, ?_, h0⟩, by simp only [hlen]; decide⟩
  · rcases (Members.mem_insert hnew).mp hm with rfl | hm
    · rw [h0]
      simp only [hlen]
      decide
    rw [hmem] at hm
    simp [empty] at hm
  refine get?_eq_some.mpr ⟨(Members.mem_insert hnew).mpr (.inl rfl), ?_⟩
  dsimp only at hlead ⊢
  rw [hlow, hlead]

/-- What the ranks and members `Validate` reads have to meet: no more than 255
ranks (or broken ones, which it replaces), and no member with the rank id that
its `>` lets through. -/
structure Loads (g : State) : Prop where
  size : g.brokenRanks ∨ g.ranks.length < 256
  member : ∀ m ∈ g.members.rows, m.rankId.toNat ≠ if g.brokenRanks then 5 else g.ranks.length

theorem validate_ranks (hl : Loads g) (names : Fin 5 → String)
    (hmin : guildRanksMinCount ≤ g.getRanksSize) (hmax : g.getRanksSize ≤ guildRanksMaxCount) :
    ∃ ranks : List RankInfo, IdsInOrder ranks ∧ ranks.length ≤ 10 ∧ 2 ≤ ranks.length ∧
      (∀ m ∈ g.members.rows, m.rankId.toNat ≠ ranks.length) ∧
      (if g.brokenRanks then ({ g with ranks := [] } : State).createDefaultGuildRanks names
        else { g with ranks := g.ranks.mapIdx fun i r =>
          if i < g.getRanksSize.toNat then r.createMissingTabsIfNeeded g.purchasedTabs else r }) =
        { g with ranks } := by
  by_cases hb : g.brokenRanks
  · obtain ⟨hids, hlen, hmem, hlead⟩ :=
      createDefaultGuildRanks_spec { g with ranks := [] } rfl names
    refine ⟨_, hids, by omega, by omega, ?_, ?_⟩
    · intro m hm
      rw [hlen]
      simpa [hb] using hl.member m hm
    rw [if_pos hb]
    rfl
  have hlen : g.ranks.length < 256 := hl.size.resolve_left hb
  have hsize : g.getRanksSize.toNat = g.ranks.length := by
    simp only [getRanksSize, Nat.toUInt8, UInt8.toNat_ofNat']
    omega
  rw [UInt8.le_iff_toNat_le, hsize] at hmin hmax
  refine ⟨_, ?_, ?_, ?_, ?_, by rw [if_neg hb]⟩
  · intro i r hi
    rw [getElem?_mapIdx, map_eq_some_iff] at hi
    obtain ⟨r', hr', rfl⟩ := hi
    have hlt : i < g.ranks.length := (List.getElem?_eq_some_iff.mp hr').1
    have hid : r'.rankId.toNat = i := by
      simp only [brokenRanks, List.any_eq_true, List.mem_range, hsize, not_exists, not_and] at hb
      simpa [hr'] using hb i hlt
    rw [if_pos (by omega)]
    exact hid
  · simpa using (show g.ranks.length ≤ 10 from hmax)
  · simpa using (show 2 ≤ g.ranks.length from hmin)
  intro m hm
  have := hl.member m hm
  rw [if_neg hb] at this
  simpa using this

theorem Ranked.mapRank (hids : IdsInOrder g.ranks) {f : Member → UInt8}
    (hf : ∀ m ∈ g.members.rows, (f m).toNat < g.ranks.length) :
    Ranked { g with members := g.members.mapRank f } where
  ids := hids
  below m hm := by
    obtain ⟨m', hm', rfl⟩ := Members.mem_mapRank.mp hm
    exact hf m' hm'

variable {g' : State}

theorem sound_repair (h : Ranked g) (hle : g.ranks.length ≤ 10)
    (hrep : (match g.members.get? g.leader with
      | none =>
        match g.deleteMember (playerGuid g.leader) with
        | .live g3 => if g3.members.rows = [] then none else some g3
        | _ => none
      | some leader =>
        if leader.rankId = grGuildmaster then some g else some (g.setLeaderGuid leader)) =
      some g') : Sound g' ∧ g'.ranks = g.ranks := by
  cases hlead : g.members.get? g.leader with
  | none =>
    have hdel := @sound_deleteMember g h hle (playerGuid g.leader) (fun hne => absurd rfl hne)
    have hranks := deleteMember_ranks g (playerGuid g.leader)
    simp only [hlead] at hrep
    cases hstat : g.deleteMember (playerGuid g.leader) with
    | live g3 =>
      rw [hstat] at hdel hranks
      simp only [hstat] at hrep
      split_ifs at hrep
      rw [← some.inj hrep]
      exact ⟨hdel, hranks⟩
    | disbanded | crashed => simp [hstat] at hrep
  | some leader =>
    simp only [hlead] at hrep
    split_ifs at hrep with h0
    · rw [← some.inj hrep]
      exact ⟨⟨⟨h, leader, hlead, h0⟩, hle⟩, rfl⟩
    rw [← some.inj hrep]
    exact ⟨⟨wellRanked_setLeaderGuid h (get?_eq_some.mp hlead).1, hle⟩, rfl⟩

theorem Sound.demoteOthers (h : Sound g) (htwo : 2 ≤ g.ranks.length) :
    Sound { g with members := g.members.mapRank fun m =>
      if m.rankId = grGuildmaster && m.lowguid ≠ g.leader then grOfficer else m.rankId } := by
  refine ⟨⟨Ranked.mapRank h.1.1.ids fun m hm => ?_, ?_⟩, h.2⟩
  · split_ifs
    · exact htwo
    · exact h.1.1.below m hm
  obtain ⟨l, hl, h0⟩ := h.1.2
  obtain ⟨hmem, hkey⟩ := get?_eq_some.mp hl
  refine ⟨l.changeRank l.rankId, get?_eq_some.mpr ⟨Members.mem_mapRank.mpr ⟨l, hmem, ?_⟩, hkey⟩, h0⟩
  simp [hkey]

/-- **What `Validate` accepts is sound**, where it `Loads`. -/
theorem sound_validate {multiple : Bool} (hl : Loads g)
    (h : g.validate names multiple = some g') : Sound g' := by
  unfold validate at h
  by_cases hguard : g.getRanksSize < guildRanksMinCount || g.getRanksSize > guildRanksMaxCount
  · simp [hguard] at h
  rw [if_neg hguard] at h
  simp only [Bool.or_eq_true, decide_eq_true_eq, not_or, UInt8.not_lt, gt_iff_lt] at hguard
  obtain ⟨ranks, hids, hle, htwo, hmem, heq⟩ := validate_ranks hl names hguard.1 hguard.2
  rw [heq, map_eq_some_iff] at h
  obtain ⟨g3, hrep, hfin⟩ := h
  set g1 : State := { g with ranks } with hg1
  have hsize : g1.getRanksSize.toNat = ranks.length := Sound.ranksSize hle
  have hlow : g1.getLowestRankId.toNat < ranks.length := by
    simp only [getLowestRankId, Nat.toUInt8, UInt8.toNat_sub, UInt8.toNat_ofNat', hg1]
    simp
    omega
  have hranked := @Ranked.mapRank g1 hids
    (fun m => if m.rankId > g1.getRanksSize then g1.getLowestRankId else m.rankId)
    fun m hm => by
      split_ifs with hgt
      · exact hlow
      rw [gt_iff_lt, UInt8.not_lt, UInt8.le_iff_toNat_le, hsize] at hgt
      exact Nat.lt_of_le_of_ne hgt (hmem m hm)
  obtain ⟨hsound, hranks⟩ := sound_repair hranked hle hrep
  have htwo' : 2 ≤ g3.ranks.length := by
    rw [hranks]
    exact htwo
  rw [← hfin]
  split_ifs
  · exact hsound
  · exact hsound.demoteOthers htwo'

/-! ### Whole lives -/

/-- How a guild comes to be in memory: founded, or read and validated. -/
inductive Origin : State → Prop where
  | created {g : State} {leader : UInt32} {names : Fin 5 → String} {p : State.Joiner}
      (h : State.create leader names p = some g) : Origin g
  | loaded {g0 g : State} {names : Fin 5 → String} {multiple : Bool} (hl : Loads g0)
      (h : g0.validate names multiple = some g) : Origin g

/-- The operation meets `KeepsRanks` in the guild it finds. -/
def StepKeepsRanks (s : Status) (op : Op) : Prop := s.Holds fun g => KeepsRanks g op

/-- **The ranks of a guild over its whole life.**  From `Guild::Create`, or from
rows that `Validate` accepts and that `Loads` admits, every sequence of
operations that meet `KeepsRanks` ends in a guild whose `i`-th rank has id `i`,
whose members' ranks exist, and whose leader is a member and guild master. -/
theorem wellRanked_of_origin {g : State} (ho : Origin g) {ops : List Op}
    (h : Along Status.run StepKeepsRanks (.live g) ops) :
    (ops.foldl Status.run (.live g)).Holds WellRanked := by
  have hstart : (Status.live g).Holds Sound := by
    cases ho with
    | created h => exact sound_create h
    | loaded hl h => exact sound_validate hl h
  have hstep (s : Status) (op : Op) (hs : s.Holds Sound) (hk : StepKeepsRanks s op) :
      (s.run op).Holds Sound := by
    cases s with
    | live g => exact sound_run hs hk
    | disbanded | crashed => trivial
  have hend := Along.invariant_foldl hstep hstart h
  cases hs : ops.foldl Status.run (.live g) with
  | live g' =>
    rw [hs] at hend
    exact hend.1
  | disbanded => trivial
  | crashed => trivial

/-- A founder and one member, in a guild with the default ranks. -/
def guildOfTwo : State :=
  let g : Option State := do
    let g ← State.create 1 (fun _ => "") { name := "Master" }
    g.addMember 2 guildRankNone { name := "Initiate" }
  g.getD { leader := 0, ranks := [], members := .empty _ }

/-- A founder who takes in a member, adds a rank, promotes the member, removes
the rank again and steps down. -/
theorem wellRanked_of_origin_life : ∃ g, create 1 (fun _ => "") { name := "Master" } = some g ∧
      (([.addMember 2 guildRankNone { name := "Initiate" }, .addNewRank 1 "Sixth",
        .updateMemberRank 1 2 false, .removeRank 1 5, .setNewGuildMaster 1 "Initiate",
        .deleteMember 1] : List Op).foldl Status.run (.live g)).Holds WellRanked := by
  obtain ⟨g, hg⟩ : ∃ g, create 1 (fun _ => "") { name := "Master" } = some g := ⟨_, rfl⟩
  refine ⟨g, hg, wellRanked_of_origin (.created hg) ?_⟩
  obtain rfl := some.inj hg
  refine ⟨.inl rfl, trivial, trivial, ?_, ?_, ?_, trivial⟩
  · exact fun _ _ _ => by decide
  · intro m _ hm
    obtain rfl := some.inj hm
    decide
  · exact fun h => absurd h (by decide)

/-- **Removing a rank shifts the others.**  The founder of a guild removes rank `1`
of the default five: the second rank now has id `2`, and the member of rank `4`
is left without one. -/
theorem removeRank_shifts :
    ((guildOfTwo.handleRemoveRank 1 1).ranks.map RankInfo.rankId = [0, 2, 3, 4] ∧
      (guildOfTwo.handleRemoveRank 1 1).members.rows.map Member.rankId = [4, 0]) ∧
    ¬ ∀ (leader : UInt32) (names : Fin 5 → String) (p : State.Joiner) (g : State)
      (ops : List Op), create leader names p = some g →
      (ops.foldl Status.run (.live g)).Holds WellRanked := by
  refine ⟨by decide, fun h => ?_⟩
  have hranked := (h 1 (fun _ => "") {} _
    [.addMember 2 guildRankNone { name := "Initiate" }, .removeRank 1 1] rfl).1
  exact absurd (hranked.ids 1 _ rfl) (by decide)

/-- `Validate` keeps a member whose rank id is the number of ranks. -/
example :
    ((({ guildOfTwo with members := guildOfTwo.members.changeRankOf 2 5 } : State).validate
      (fun _ => "") false).map fun g => (g.members.rows.map Member.rankId, g.ranks.length)) =
        some ([5, 0], 5) := by decide

end ZerosCore.Guild
