/-
# The money of a guild and the daily limits

`HandleMemberDepositMoney`, `HandleMemberWithdrawMoney`, `_ModifyBankMoney`,
`_GetMemberRemainingSlots`, `_GetMemberRemainingMoney`,
`_UpdateMemberWithdrawSlots`, `Member::UpdateBankWithdrawValue`, `ResetValues`
and `GetBankWithdrawValue` (`src/server/game/Guilds/Guild.cpp`), with the packet
handlers of deposits and withdrawals (`src/server/game/Handlers/GuildHandler.cpp`).

A rank has a limit on the money, and one for each tab on the items, that a member
may take a day; a member has counters of what it took since the last reset.
Limits and counters are `uint32` and `int32` of 32 bits: here they are the bits,
and `int32` reads them as the source does.  The counter of money also runs while
the member is guild master and has no limit.

`taken` and `takenSlots` record what a member took since the last reset while it
was not guild master, `peak` and `peakSlots` the largest limit that its ranks had
in that time, and `repairs` what the guild paid for its repairs; no operation
reads them.  A player who leaves and comes back is a new member.
-/

import ZerosCore.Guild.Ranks
import ZerosCore.Player.Money

namespace ZerosCore.Guild

open Player

/-! ### Limits -/

def grRightWithdrawRepair : UInt32 := 0x00040000
def grRightWithdrawGold : UInt32 := 0x00080000
def guildBankRightViewTab : UInt8 := 0x01

namespace State

def getRankBankMoneyPerDay (g : State) (rankId : UInt8) : UInt32 :=
  match g.getRankInfo rankId with
  | some rankInfo => rankInfo.bankMoneyPerDay
  | none => 0

/-- The rights and slots of a rank in a tab. -/
def getRankBankTab (g : State) (rankId tabId : UInt8) : Option BankRightsAndSlots :=
  (g.getRankInfo rankId).bind fun rankInfo => rankInfo.bankTabs[tabId.toNat]?

def getRankBankTabSlotsPerDay (g : State) (rankId tabId : UInt8) : UInt32 :=
  if tabId < g.purchasedTabs then
    match g.getRankBankTab rankId tabId with
    | some tab => tab.slots
    | none => 0
  else 0

def getRankBankTabRights (g : State) (rankId tabId : UInt8) : UInt8 :=
  match g.getRankBankTab rankId tabId with
  | some tab => tab.rights
  | none => 0

/-- What a limit leaves of a day: a subtraction of `int32`. -/
def remaining (limit withdrawn : UInt32) : ℤ :=
  Int.bmod (int32 limit - int32 withdrawn) (2 ^ 32)

/-- `_GetMemberRemainingSlots`.  A right is compared with `GR_RIGHT_EMPTY`, which no masked right
is, so that the test always passes. -/
def getMemberRemainingSlots (g : State) (rankId tabId : UInt8) (withdrawn : UInt32) : ℤ :=
  if rankId = grGuildmaster then int32 guildWithdrawSlotUnlimited
  else if (g.getRankBankTabRights rankId tabId &&& guildBankRightViewTab).toUInt32 ≠ grRightEmpty
  then
    let left := remaining (g.getRankBankTabSlotsPerDay rankId tabId) withdrawn
    if left > 0 then left else 0
  else 0

def getMemberRemainingMoney (g : State) (rankId : UInt8) (withdrawn : UInt32) : ℤ :=
  if rankId = grGuildmaster then int32 guildWithdrawMoneyUnlimited
  else if g.getRankRights rankId &&& (grRightWithdrawRepair ||| grRightWithdrawGold) ≠ grRightEmpty
  then
    let left := remaining (g.getRankBankMoneyPerDay rankId) withdrawn
    if left > 0 then left else 0
  else 0

end State

/-! ### The treasury -/

/-- A guild with its money, the counters of its members and the money of the players. -/
structure Treasury where
  guild : State
  bankMoney : UInt64
  money : UInt32 → ℕ
  withdrawn : UInt32 → UInt32
  withdrawnSlots : UInt32 → UInt8 → UInt32
  repairs : UInt32 → ℕ
  taken : UInt32 → ℕ
  takenSlots : UInt32 → UInt8 → ℕ
  peak : UInt32 → ℕ
  peakSlots : UInt32 → UInt8 → ℕ

namespace Treasury

/-- The limits of a member that is not guild master; a stranger and a guild master have none. -/
def limit (g : State) (player : UInt32) : ℕ :=
  match g.members.get? player with
  | some m => if m.rankId = grGuildmaster then 0 else (g.getRankBankMoneyPerDay m.rankId).toNat
  | none => 0
def limitSlots (g : State) (player : UInt32) (tabId : UInt8) : ℕ :=
  match g.members.get? player with
  | some m =>
    if m.rankId = grGuildmaster then 0 else (g.getRankBankTabSlotsPerDay m.rankId tabId).toNat
  | none => 0

/-- The record of the limits. -/
def observe (s : Treasury) : Treasury :=
  { s with
    peak := fun p => max (s.peak p) (limit s.guild p)
    peakSlots := fun p t => max (s.peakSlots p t) (limitSlots s.guild p t) }

/-- The money of a player, as it is loaded. -/
abbrev Wallet := { money : ℕ // money ≤ maxMoneyAmount }

/-- A guild as it is loaded, at the start of a day. -/
def start (g : State) (bankMoney : UInt64) (wallets : UInt32 → Wallet) : Treasury :=
  observe
    { guild := g, bankMoney := bankMoney, money := fun p => (wallets p).val, withdrawn := fun _ => 0
      withdrawnSlots := fun _ _ => 0
      repairs := fun _ => 0
      taken := fun _ => 0
      takenSlots := fun _ _ => 0
      peak := fun _ => 0
      peakSlots := fun _ _ => 0 }

/-! ### Money -/

/-- `HandleMemberDepositMoney` with the member's own money. -/
def handleMemberDepositMoney (s : Treasury) (player : UInt32) (amount : UInt64) : Treasury :=
  { s with
    bankMoney := s.bankMoney + amount
    money := Function.update s.money player (modifyMoney (s.money player) (-int64 amount)) }

/-- `HandleMemberWithdrawMoney`, `none` where it returns `false`.  The limit is compared as a
`uint64`. -/
def handleMemberWithdrawMoney (s : Treasury) (player : UInt32) (amount : UInt32)
    (repair : Bool) : Option Treasury :=
  if s.bankMoney < amount.toUInt64 then none
  else
    match s.guild.members.get? player with
    | none => none
    | some member =>
      let left := s.guild.getMemberRemainingMoney member.rankId (s.withdrawn player)
      if (left % 2 ^ 64).toNat < amount.toNat then none
      else
        some { s with
          withdrawn := Function.update s.withdrawn player (s.withdrawn player + amount)
          bankMoney := s.bankMoney - amount.toUInt64
          money :=
            if repair then s.money
            else Function.update s.money player (modifyMoney (s.money player) amount.toNat)
          repairs :=
            if repair then Function.update s.repairs player (s.repairs player + amount.toNat)
            else s.repairs
          taken :=
            if member.rankId = grGuildmaster then s.taken
            else Function.update s.taken player (s.taken player + amount.toNat) }

def handleGuildBankDepositMoney (s : Treasury) (player : UInt32) (money : UInt64) : Treasury :=
  if money ≠ 0 ∧ hasEnoughMoney (s.money player) money ∧
      (s.guild.members.get? player).isSome then
    s.handleMemberDepositMoney player money
  else s

/-- `HandleGuildBankWithdrawMoney`: the amount is cut to 32 bits. -/
def handleGuildBankWithdrawMoney (s : Treasury) (player : UInt32) (money : UInt64) : Treasury :=
  if money ≠ 0 then (s.handleMemberWithdrawMoney player money.toUInt32 false).getD s else s

/-! ### Items -/

def updateMemberWithdrawSlots (s : Treasury) (player : UInt32) (member : Member)
    (tabId : UInt8) : UInt32 :=
  if member.rankId ≠ grGuildmaster ∧ int32 (s.withdrawnSlots player tabId) <
      int32 (s.guild.getRankBankTabSlotsPerDay member.rankId tabId) then
    s.withdrawnSlots player tabId + 1
  else s.withdrawnSlots player tabId

/-- An item leaves a tab: `BankMoveItemData::HasWithdrawRights` and the counting in
`RemoveItem`. -/
def withdrawItem (s : Treasury) (player : UInt32) (tabId : UInt8) : Treasury :=
  match s.guild.members.get? player with
  | none => s
  | some member =>
    if s.guild.getMemberRemainingSlots member.rankId tabId (s.withdrawnSlots player tabId) = 0
    then s
    else
      { s with
        withdrawnSlots := Function.update s.withdrawnSlots player
          (Function.update (s.withdrawnSlots player) tabId
            (s.updateMemberWithdrawSlots player member tabId))
        takenSlots :=
          if member.rankId = grGuildmaster then s.takenSlots
          else Function.update s.takenSlots player
            (Function.update (s.takenSlots player) tabId (s.takenSlots player tabId + 1)) }

/-! ### The guild as a whole -/

/-- `ResetTimes`: `ResetValues` of every member. -/
def resetTimes (s : Treasury) : Treasury :=
  { s with
    withdrawn := fun _ => 0
    withdrawnSlots := fun _ _ => 0
    taken := fun _ => 0
    takenSlots := fun _ _ => 0
    peak := fun _ => 0
    peakSlots := fun _ _ => 0 }

/-- An operation on ranks and members.  A player who joins is a new member without a past. -/
def runGuild (s : Treasury) (op : Op) : Treasury :=
  match s.guild.run op with
  | .live g =>
    let joined := fun p => (s.guild.members.get? p).isNone && (g.members.get? p).isSome
    { s with
      guild := g
      withdrawn := fun p => if joined p then 0 else s.withdrawn p
      withdrawnSlots := fun p t => if joined p then 0 else s.withdrawnSlots p t
      taken := fun p => if joined p then 0 else s.taken p
      takenSlots := fun p t => if joined p then 0 else s.takenSlots p t
      peak := fun p => if joined p then 0 else s.peak p
      peakSlots := fun p t => if joined p then 0 else s.peakSlots p t }
  | _ => s

/-- What may happen to a guild. -/
inductive Event
  | deposit (player : UInt32) (money : UInt64)
  | withdraw (player : UInt32) (money : UInt64)
  | repair (player : UInt32) (costs : UInt32)
  | withdrawItem (player : UInt32) (tabId : UInt8)
  | guild (op : Op)
  | resetTimes

def apply (s : Treasury) : Event → Treasury
  | .deposit player money => s.handleGuildBankDepositMoney player money
  | .withdraw player money => s.handleGuildBankWithdrawMoney player money
  | .repair player costs => (s.handleMemberWithdrawMoney player costs true).getD s
  | .withdrawItem player tabId => s.withdrawItem player tabId
  | .guild op => s.runGuild op
  | .resetTimes => s.resetTimes

/-- One event, with the record of the limits behind it. -/
def step (s : Treasury) (e : Event) : Treasury := (s.apply e).observe

end Treasury
end ZerosCore.Guild
