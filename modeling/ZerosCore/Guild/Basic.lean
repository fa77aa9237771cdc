/-
# Guild ranks and members

`src/server/game/Guilds/Guild.h` and `Guild.cpp`: `Guild::RankInfo`,
`Guild::Member` and the operations on `m_ranks`, `m_members` and
`m_leaderGuid`.

Ranks are a vector addressed by position; each `RankInfo` stores its own
`m_rankId` besides.  Members are a hash map keyed by the low half of the guid,
modelled as the list of its rows in iteration order (`Lib.Keyed`), so that the
loops of `DeleteMember` and `Validate` meet the members in that order.  The
integers are the source's: a rank id is a `uint8`, a client names a rank by a
`uint32` and a member by a `uint64`.  The guids the server itself stores
(`m_guid`, `m_leaderGuid`, the guid of a session's player) are player guids,
`MAKE_NEW_GUID(low, 0, HIGHGUID_PLAYER)`, and are modelled by their low half; a
guid read from a packet keeps its 64 bits.

The operations end in a live guild, in a guild that `Disband` has dissolved, or
in a dereferenced null pointer (`HandleSetMemberRank` reads the rank of
`GetMember(targetGuid)` before looking whether there is one).
-/

import ZerosCore.Lib.Keyed

namespace ZerosCore.Guild

open Lib List Option

/-! ### Constants (`GuildMisc`, `GuildDefaultRanks`, `GuildRankRights`) -/

def guildBankMaxTabs : ℕ := 8
def guildRanksMinCount : UInt8 := 2
def guildRanksMaxCount : UInt8 := 10
def guildRankNone : UInt8 := 0xFF
def guildWithdrawMoneyUnlimited : UInt32 := 0xFFFFFFFF
def guildWithdrawSlotUnlimited : UInt32 := 0xFFFFFFFF
def guildBankRightFull : UInt8 := 0xFF
def tabUndefined : UInt8 := 0xFF

def grGuildmaster : UInt8 := 0
def grOfficer : UInt8 := 1
def grInitiate : UInt8 := 4

def grRightEmpty : UInt32 := 0x40
def grRightGchatlisten : UInt32 := grRightEmpty ||| 0x1
def grRightGchatspeak : UInt32 := grRightEmpty ||| 0x2
def grRightRemove : UInt32 := grRightEmpty ||| 0x20
def grRightPromote : UInt32 := grRightEmpty ||| 0x80
def grRightDemote : UInt32 := grRightEmpty ||| 0x100
def grRightAll : UInt32 := 0x00DDFFBF

/-! ### Data -/

def guidLopart (guid : UInt64) : UInt32 := guid.toUInt32

/-- `MAKE_NEW_GUID(low, 0, HIGHGUID_PLAYER)`, the high part of a player being `0`. -/
def playerGuid (low : UInt32) : UInt64 := low.toUInt64

/-- `GuildBankRightsAndSlots`. -/
structure BankRightsAndSlots where
  tabId : UInt8 := tabUndefined
  rights : UInt8 := 0
  slots : UInt32 := 0
  deriving DecidableEq

def BankRightsAndSlots.setGuildMasterValues (b : BankRightsAndSlots) : BankRightsAndSlots :=
  { b with rights := guildBankRightFull, slots := guildWithdrawSlotUnlimited }

structure RankInfo where
  rankId : UInt8
  name : String
  rights : UInt32
  bankMoneyPerDay : UInt32
  bankTabs : List BankRightsAndSlots := List.replicate guildBankMaxTabs {}
  deriving DecidableEq

/-- `Guild::Member`, the fields the rank operations read. -/
structure Member where
  lowguid : UInt32
  name : String
  rankId : UInt8
  deriving DecidableEq

namespace Member

def changeRank (newRank : UInt8) (m : Member) : Member := { m with rankId := newRank }

def isRankNotLower (m : Member) (rankId : UInt8) : Bool := m.rankId ≤ rankId

@[simp] theorem lowguid_changeRank (r : UInt8) (m : Member) :
    (m.changeRank r).lowguid = m.lowguid := rfl

@[simp] theorem rankId_changeRank (r : UInt8) (m : Member) : (m.changeRank r).rankId = r := rfl

end Member

/-- `m_members`: a hash map, so no two members share a low guid. -/
abbrev Members := Keyed.Table Member.lowguid

namespace Members

/-- `ChangeRank` through a pointer into the map. -/
def changeRankOf (ms : Members) (low : UInt32) (newRank : UInt8) : Members :=
  ms.modify low (Member.changeRank newRank) fun _ => rfl

/-- `ChangeRank` of every member to what `f` says, in a loop over the map. -/
def mapRank (ms : Members) (f : Member → UInt8) : Members where
  rows := ms.rows.map fun m => m.changeRank (f m)
  distinct := by
    have h : (ms.rows.map fun m => m.changeRank (f m)).map Member.lowguid =
        ms.rows.map Member.lowguid := by simp [Function.comp_def]
    rw [Keyed.Distinct, h]
    exact ms.distinct

/-- `m_members[lowguid] = member` for a guid not in the map, put at place `i` of
the iteration order. -/
def insert (ms : Members) (i : ℕ) (m : Member) (h : ms.get? m.lowguid = none) : Members where
  rows := ms.rows.take i ++ m :: ms.rows.drop i
  distinct := by
    have hp : (ms.rows.take i ++ m :: ms.rows.drop i).Perm (m :: ms.rows) := by
      simpa using List.perm_middle.trans (List.Perm.cons m (by rw [List.take_append_drop]))
    rw [Keyed.Distinct, (hp.map _).nodup_iff]
    exact Keyed.distinct_cons.mpr ⟨Keyed.Table.get?_eq_none.mp h, ms.distinct⟩

theorem get?_changeRankOf (ms : Members) (low k : UInt32) (r : UInt8) :
    (ms.changeRankOf low r).get? k =
      if k = low then (ms.get? k).map (Member.changeRank r) else ms.get? k :=
  Keyed.Table.get?_modify _ _ k

variable {ms : Members}

theorem mem_insert {i : ℕ} {m m' : Member} (h : ms.get? m.lowguid = none) :
    m' ∈ (ms.insert i m h).rows ↔ m' = m ∨ m' ∈ ms.rows := by
  have hsplit : m' ∈ ms.rows ↔ m' ∈ ms.rows.take i ∨ m' ∈ ms.rows.drop i := by
    rw [← mem_append, take_append_drop]
  simp only [insert, mem_append, mem_cons, hsplit]
  tauto

theorem mem_mapRank {f : Member → UInt8} {m : Member} :
    m ∈ (ms.mapRank f).rows ↔ ∃ m' ∈ ms.rows, m'.changeRank (f m') = m := by
  simp [mapRank]

end Members

/-- What a guild stores of ranks, members and leadership. -/
structure State where
  leader : UInt32
  ranks : List RankInfo
  members : Members
  purchasedTabs : UInt8 := 0
  deriving DecidableEq

/-- What an operation leaves: a guild, a dissolved guild, or a null pointer
dereferenced. -/
inductive Status where
  | live (g : State)
  | disbanded
  | crashed
  deriving DecidableEq

/-! ### Accessors -/

namespace State

def getRanksSize (g : State) : UInt8 := g.ranks.length.toUInt8

/-- `_GetLowestRankId`: `uint8(m_ranks.size() - 1)`, so `255` for no ranks. -/
def getLowestRankId (g : State) : UInt8 := g.ranks.length.toUInt8 - 1

def getRankInfo (g : State) (rankId : UInt8) : Option RankInfo :=
  if rankId < g.getRanksSize then g.ranks[rankId.toNat]? else none

/-- `GetMember(uint64)`. -/
def getMember (g : State) (guid : UInt64) : Option Member := g.members.get? (guidLopart guid)

/-- `GetMember(std::string const&)`. -/
def getMemberByName (g : State) (name : String) : Option Member :=
  g.members.rows.find? fun m => m.name = name

def getRankRights (g : State) (rankId : UInt8) : UInt32 :=
  match g.getRankInfo rankId with
  | some rankInfo => rankInfo.rights
  | none => 0

def hasRankRight (g : State) (player : UInt32) (right : UInt32) : Bool :=
  match g.members.get? player with
  | some member => (g.getRankRights member.rankId &&& right) ≠ grRightEmpty
  | none => false

def isLeader (g : State) (player : UInt32) : Bool :=
  player = g.leader ||
    match g.members.get? player with
    | some member => member.rankId = grGuildmaster
    | none => false

/-- `member->ChangeRank(newRank)`. -/
def changeRankOf (g : State) (low : UInt32) (newRank : UInt8) : State :=
  { g with members := g.members.changeRankOf low newRank }

def setLeaderGuid (g : State) (leader : Member) : State :=
  { g.changeRankOf leader.lowguid grGuildmaster with leader := leader.lowguid }

end State

/-! ### Ranks -/

def RankInfo.createMissingTabsIfNeeded (r : RankInfo) (tabs : UInt8) : RankInfo :=
  { r with bankTabs := r.bankTabs.mapIdx fun i b =>
      if tabs.toNat ≤ i || b.tabId.toNat = i then b
      else
        let b := { b with tabId := i.toUInt8 }
        if r.rankId = grGuildmaster then b.setGuildMasterValues else b }

def RankInfo.setRights (r : RankInfo) (rights : UInt32) : RankInfo :=
  { r with rights := if r.rankId = grGuildmaster then grRightAll else rights }

def RankInfo.setBankMoneyPerDay (r : RankInfo) (money : UInt32) : RankInfo :=
  { r with bankMoneyPerDay :=
      if r.rankId = grGuildmaster then guildWithdrawMoneyUnlimited else money }

def RankInfo.setBankTabSlotsAndRights (r : RankInfo) (b : BankRightsAndSlots) : RankInfo :=
  let b := if r.rankId = grGuildmaster then b.setGuildMasterValues else b
  { r with bankTabs := r.bankTabs.set b.tabId.toNat b }

namespace State

/-- `_CreateRank`: the missing tabs are created in `info`, which is saved, after its copy has been
pushed. -/
def createRank (g : State) (name : String) (rights : UInt32) : State :=
  let newRankId := g.getRanksSize
  if newRankId ≥ guildRanksMaxCount then g
  else { g with ranks := g.ranks ++ [{ rankId := newRankId, name, rights, bankMoneyPerDay := 0 }] }

/-- `_CreateDefaultGuildRanks`, `names` being the five localised texts
`LANG_GUILD_MASTER` … `LANG_GUILD_INITIATE`. -/
def createDefaultGuildRanks (g : State) (names : Fin 5 → String) : State :=
  let chat := grRightGchatlisten ||| grRightGchatspeak
  ((((g.createRank (names 0) grRightAll).createRank (names 1) grRightAll).createRank (names 2)
    chat).createRank (names 3) chat).createRank (names 4) chat

/-! ### Members -/

/-- What `AddMember` asks of the world about the player it adds. -/
structure Joiner where
  /-- `GetGuildId() != 0` (or the row of the character says so) for a player
  that is no member of this guild; members have this guild's id. -/
  inOtherGuild : Bool := false
  /-- `ObjectAccessor::FindPlayer(guid)` finds it. -/
  online : Bool := true
  /-- An offline player's row exists and passes `CheckStats`. -/
  checkStats : Bool := true
  name : String := ""
  /-- Where the hash map puts the new member in its iteration order. -/
  bucket : ℕ := 0

/-- `AddMember`, `none` where it returns `false`. -/
def addMember (g : State) (low : UInt32) (rankId : UInt8) (p : Joiner) : Option State :=
  if h : g.members.get? low = none then
    if p.inOtherGuild then none
    else if !p.online && !p.checkStats then none
    else
      let rankId := if rankId = guildRankNone then g.getLowestRankId else rankId
      some { g with
        members := g.members.insert p.bucket { lowguid := low, name := p.name, rankId } h }
  else none

/-- The body of the loop of `DeleteMember` over `m_members`. -/
def betterLeader (low : UInt32) (newLeader : Option Member) (m : Member) : Option Member :=
  if m.lowguid = low then newLeader
  else match newLeader with
    | none => some m
    | some b => if b.rankId > m.rankId then some m else some b

/-- The loop: among the members other than `low`, the first one of the smallest
rank id. -/
def newLeaderFrom (low : UInt32) (newLeader : Option Member) (ms : List Member) : Option Member :=
  ms.foldl (betterLeader low) newLeader

/-- `DeleteMember(guid)` outside of a disband. -/
def deleteMember (g : State) (guid : UInt64) : Status :=
  let low := guidLopart guid
  if playerGuid g.leader = guid then
    match newLeaderFrom low none g.members.rows with
    | none => .disbanded
    | some newLeader =>
      let g := g.setLeaderGuid newLeader
      .live { g with members := g.members.erase low }
  else .live { g with members := g.members.erase low }

/-! ### Handlers -/

def handleRemoveMember (g : State) (player : UInt32) (guid : UInt64) : Status :=
  if !g.hasRankRight player grRightRemove then .live g
  else match g.getMember guid with
    | none => .live g
    | some member =>
      if member.rankId = grGuildmaster then .live g
      else match g.members.get? player with
        | none => .live g
        | some memberMe =>
          if member.isRankNotLower memberMe.rankId then .live g else g.deleteMember guid

def handleUpdateMemberRank (g : State) (player : UInt32) (guid : UInt64) (demote : Bool) :
    Status :=
  if !g.hasRankRight player (if demote then grRightDemote else grRightPromote) then .live g
  else match g.getMember guid with
    | none => .live g
    | some member =>
      if member.lowguid = player then .live g
      else match g.members.get? player with
        | none => .crashed
        | some memberMe =>
          let rankId := memberMe.rankId
          if demote then
            if member.isRankNotLower rankId then .live g
            else if member.rankId ≥ g.getLowestRankId then .live g
            else .live (g.changeRankOf member.lowguid (member.rankId + 1))
          else if member.isRankNotLower (rankId + 1) then .live g
          else .live (g.changeRankOf member.lowguid (member.rankId - 1))

/-- `HandleSetMemberRank`, with the `SendGuildRanksUpdate` it ends in, whose
only effect on the guild is `member->ChangeRank(rank)`. -/
def handleSetMemberRank (g : State) (player : UInt32) (targetGuid : UInt64) (rank : UInt32) :
    Status :=
  match g.getMember targetGuid with
  | none => .crashed
  | some member =>
    let rights := if rank > member.rankId.toUInt32 then grRightDemote else grRightPromote
    if !g.hasRankRight player rights then .live g
    else if member.lowguid = player then .live g
    else .live (g.changeRankOf member.lowguid rank.toUInt8)

def handleSetNewGuildMaster (g : State) (player : UInt32) (name : String) : State :=
  if !g.isLeader player then g
  else match g.members.get? player with
    | none => g
    | some oldGuildMaster =>
      match g.getMemberByName name with
      | none => g
      | some newGuildMaster =>
        (g.setLeaderGuid newGuildMaster).changeRankOf oldGuildMaster.lowguid grInitiate

def handleAddNewRank (g : State) (player : UInt32) (name : String) : State :=
  if g.getRanksSize ≥ guildRanksMaxCount then g
  else if g.isLeader player then g.createRank name (grRightGchatlisten ||| grRightGchatspeak)
  else g

def handleRemoveRank (g : State) (player : UInt32) (rankId : UInt8) : State :=
  if g.getRanksSize ≤ guildRanksMinCount || rankId ≥ g.getRanksSize || !g.isLeader player then g
  else { g with ranks := g.ranks.eraseIdx rankId.toNat }

/-- `HandleSetRankInfo`: name, rights and daily money of the rank, then each tab
through `_SetRankBankTabRightsAndSlots`, which skips tabs not bought.  The
packet handler passes the tab ids `0` … `7`. -/
def handleSetRankInfo (g : State) (player : UInt32) (rankId : UInt8) (name : String)
    (rights moneyPerDay : UInt32) (rightsAndSlots : List BankRightsAndSlots) : State :=
  if !g.isLeader player then g
  else match g.getRankInfo rankId with
    | none => g
    | some rankInfo =>
      let rankInfo := (({ rankInfo with name }).setRights rights).setBankMoneyPerDay moneyPerDay
      let rankInfo := rightsAndSlots.foldl (fun r b =>
        if b.tabId ≥ g.purchasedTabs then r else r.setBankTabSlotsAndRights b) rankInfo
      { g with ranks := g.ranks.set rankId.toNat rankInfo }

/-! ### Creation and loading -/

/-- `Guild::Create`, up to the reputation of the founder: default ranks, then
`AddMember(m_leaderGuid, GR_GUILDMASTER)`, whose result it returns. -/
def create (leader : UInt32) (names : Fin 5 → String) (p : Joiner) : Option State :=
  let g : State := { leader, ranks := [], members := .empty _ }
  (g.createDefaultGuildRanks names).addMember leader grGuildmaster p

/-- The rank loop of `Validate`: a rank whose id is not its position is broken,
the others get their missing bank tabs. -/
def brokenRanks (g : State) : Bool :=
  (List.range g.getRanksSize.toNat).any fun i =>
    match g.ranks[i]? with
    | some r => r.rankId.toNat ≠ i
    | none => false

/-- `Validate` on what `LoadFromDB`, `LoadRankFromDB` and `LoadMemberFromDB`
read, `multiple` being `Guild.AllowMultipleGuildMaster`; `none` when it returns
`false` and the guild is deleted. -/
def validate (g : State) (names : Fin 5 → String) (multiple : Bool) : Option State :=
  if g.getRanksSize < guildRanksMinCount || g.getRanksSize > guildRanksMaxCount then none
  else
    let g1 :=
      if g.brokenRanks then ({ g with ranks := [] } : State).createDefaultGuildRanks names
      else { g with ranks := g.ranks.mapIdx fun i r =>
        if i < g.getRanksSize.toNat then r.createMissingTabsIfNeeded g.purchasedTabs else r }
    -- the repair of members compares with `>`, so a rank equal to the size stays
    let g2 : State := { g1 with members := g1.members.mapRank fun m =>
      if m.rankId > g1.getRanksSize then g1.getLowestRankId else m.rankId }
    let repaired : Option State :=
      match g2.members.get? g2.leader with
      | none =>
        match g2.deleteMember (playerGuid g2.leader) with
        | .live g3 => if g3.members.rows = [] then none else some g3
        | _ => none
      | some leader =>
        if leader.rankId = grGuildmaster then some g2 else some (g2.setLeaderGuid leader)
    repaired.map fun g3 =>
      if multiple then g3
      else { g3 with members := g3.members.mapRank fun m =>
        if m.rankId = grGuildmaster && m.lowguid ≠ g3.leader then grOfficer else m.rankId }

variable {low : UInt32}

theorem addMember_eq_some {g g' : State} {rankId : UInt8} {p : Joiner}
    (h : g.addMember low rankId p = some g') :
    ∃ (m : Member) (hm : g.members.get? m.lowguid = none), m.lowguid = low ∧
      m.rankId = (if rankId = guildRankNone then g.getLowestRankId else rankId) ∧
      g' = { g with members := g.members.insert p.bucket m hm } := by
  unfold addMember at h
  by_cases hnone : g.members.get? low = none
  · rw [dif_pos hnone] at h
    by_cases hguild : p.inOtherGuild
    · simp [hguild] at h
    by_cases hstats : !p.online && !p.checkStats
    · simp [hguild, hstats] at h
    rw [if_neg hguild, if_neg hstats] at h
    exact ⟨_, hnone, rfl, rfl, (some.inj h).symm⟩
  · simp [hnone] at h

/-! ### The loop of `DeleteMember` -/

variable {best : Option Member}

theorem betterLeader_eq_some {m b : Member} (h : betterLeader low best m = some b) :
    (best = some b ∨ b = m ∧ m.lowguid ≠ low) ∧ (m.lowguid ≠ low → b.rankId ≤ m.rankId) ∧
      ∀ c, best = some c → b.rankId ≤ c.rankId := by
  unfold betterLeader at h
  by_cases hm : m.lowguid = low
  · rw [if_pos hm] at h
    subst h
    simp [hm]
  rw [if_neg hm] at h
  cases best with
  | none =>
    obtain rfl := some.inj h
    simp [hm]
  | some c =>
    dsimp only at h
    by_cases hc : c.rankId > m.rankId
    · rw [if_pos hc] at h
      obtain rfl := some.inj h
      exact ⟨.inr ⟨rfl, hm⟩, by simp, fun c' hc' => by grind⟩
    rw [if_neg hc] at h
    obtain rfl := some.inj h
    exact ⟨.inl rfl, fun _ => by grind, fun c' hc' => by grind⟩

variable {ms : List Member}

/-- **The candidate of the loop**: it is the one it started with or a member met
since, and no member met since has a smaller rank id. -/
theorem newLeaderFrom_eq_some {b : Member}
    (h : newLeaderFrom low best ms = some b) : (best = some b ∨ b ∈ ms ∧ b.lowguid ≠ low) ∧
      (∀ m ∈ ms, m.lowguid ≠ low → b.rankId ≤ m.rankId) ∧
        ∀ c, best = some c → b.rankId ≤ c.rankId := by
  induction ms generalizing best with
  | nil => simp_all [newLeaderFrom]
  | cons m ms ih =>
    obtain ⟨hb, hms, hbest⟩ := @ih (betterLeader low best m) h
    have hround {d : Member} (hd : betterLeader low best m = some d) := betterLeader_eq_some hd
    -- the candidate after the first round exists, whichever side `b` comes from
    have hmem : best = some b ∨ b ∈ m :: ms ∧ b.lowguid ≠ low := by
      rcases hb with hb | hb
      · rcases (hround hb).1 with hb | ⟨rfl, hm⟩
        · exact .inl hb
        · exact .inr ⟨mem_cons_self, hm⟩
      · exact .inr ⟨mem_cons_of_mem _ hb.1, hb.2⟩
    cases hd : betterLeader low best m with
    | none =>
      have hnone : best = none ∧ m.lowguid = low := by
        unfold betterLeader at hd
        split_ifs at hd with hm
        · exact ⟨hd, hm⟩
        cases best <;> simp at hd
        split_ifs at hd
      refine ⟨hmem, fun m' hm' hne => ?_, by simp [hnone.1]⟩
      rcases mem_cons.mp hm' with rfl | hm'
      · exact absurd hnone.2 hne
      · exact hms m' hm' hne
    | some d =>
      obtain ⟨-, hdm, hdc⟩ := hround hd
      have hbd := hbest d hd
      refine ⟨hmem, fun m' hm' hne => ?_, fun c hc => UInt8.le_trans hbd (hdc c hc)⟩
      rcases mem_cons.mp hm' with rfl | hm'
      · exact UInt8.le_trans hbd (hdm hne)
      · exact hms m' hm' hne

theorem newLeaderFrom_eq_none
    (h : newLeaderFrom low best ms = none) : best = none ∧ ∀ m ∈ ms, m.lowguid = low := by
  induction ms generalizing best with
  | nil => simpa [newLeaderFrom] using h
  | cons m ms ih =>
    obtain ⟨hbest, hms⟩ := @ih (betterLeader low best m) h
    unfold betterLeader at hbest
    split_ifs at hbest with hm
    · exact ⟨hbest, forall_mem_cons.mpr ⟨hm, hms⟩⟩
    cases best <;> simp at hbest
    split_ifs at hbest

end State
end ZerosCore.Guild
