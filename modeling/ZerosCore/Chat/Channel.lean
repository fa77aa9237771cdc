/-
# Chat channels

`Channel` (`src/server/game/Chat/Channels/Channel.{h,cpp}`) with the requests
the handlers of `src/server/game/Handlers/ChannelHandler.cpp` pass to it, and
`ChannelMgr::LeftChannel` (`Chat/Channels/ChannelMgr.cpp`), which deletes a
channel nobody is in.

* `Player`, `World` are what a request reads of the outside: the players in the
  world under their guids, and two settings.
* `playersStore` is a `std::map`, so `operator[]` creates the entry it does not
  find, with every field zero (`subscript`), and `begin()` is the entry with the
  least guid (`first`).
* A refused request answers with a notice and changes nothing: the requests
  return `Except ChatNotify Channel`.  The packets that tell the members of a
  change are not modelled.
* Handlers normalize the names they get (`normalizePlayerName`), and names of
  players are kept in that form.
-/

import Mathlib.Data.List.MinMax
import Mathlib.Data.Finset.Basic
import ZerosCore.Lib.Keyed

namespace ZerosCore.Chat

open Lib.Keyed

/-! ### Names -/

/-- A name as its wide characters. -/
abbrev WString := List ℕ

/-- `wcharToUpper` (`src/server/shared/Utilities/Util.h`). -/
def wcharToUpper (wchar : ℕ) : ℕ :=
  if 0x61 ≤ wchar ∧ wchar ≤ 0x7A then wchar - 0x20
  else if wchar = 0xDF then 0x1E9E
  else if 0xE0 ≤ wchar ∧ wchar ≤ 0xF6 then wchar - 0x20
  else if 0xF8 ≤ wchar ∧ wchar ≤ 0xFE then wchar - 0x20
  else if 0x101 ≤ wchar ∧ wchar ≤ 0x12F ∧ wchar % 2 = 1 then wchar - 1
  else if 0x430 ≤ wchar ∧ wchar ≤ 0x44F then wchar - 0x20
  else if wchar = 0x451 then 0x401
  else wchar

def wcharToLower (wchar : ℕ) : ℕ :=
  if 0x41 ≤ wchar ∧ wchar ≤ 0x5A then wchar + 0x20
  else if 0xC0 ≤ wchar ∧ wchar ≤ 0xD6 then wchar + 0x20
  else if 0xD8 ≤ wchar ∧ wchar ≤ 0xDE then wchar + 0x20
  else if 0x100 ≤ wchar ∧ wchar ≤ 0x12E ∧ wchar % 2 = 0 then wchar + 1
  else if wchar = 0x1E9E then 0xDF
  else if wchar = 0x401 then 0x451
  else if 0x410 ≤ wchar ∧ wchar ≤ 0x42F then wchar + 0x20
  else wchar

/-- `tolower` on the bytes of a name touches the ASCII capitals only. -/
def tolower (wchar : ℕ) : ℕ := if 0x41 ≤ wchar ∧ wchar ≤ 0x5A then wchar + 0x20 else wchar

def maxInternalPlayerName : ℕ := 15

/-- `normalizePlayerName`: the first letter upper case, the others lower case;
refused if empty or too long. -/
def normalizePlayerName : WString → Option WString
  | [] => none
  | c :: cs =>
    if (c :: cs).length ≤ maxInternalPlayerName then some (wcharToUpper c :: cs.map wcharToLower)
    else none

/-! ### Players and the world -/

/-- What a channel reads of a player.  `inGroup` is `GetGroup() != NULL`. -/
structure Player where
  guid : ℕ
  guid_ne : guid ≠ 0
  name : WString
  normal : normalizePlayerName name = some name
  security : ℕ
  team : ℕ
  inGroup : Bool

/-- `AccountMgr::IsPlayerAccount`, `SEC_PLAYER` being `0`. -/
def isPlayerAccount (gmlevel : ℕ) : Bool := gmlevel = 0

/-- `AccountMgr::IsGMAccount`: from `SEC_GAMEMASTER` to `SEC_CONSOLE`. -/
def isGMAccount (gmlevel : ℕ) : Bool := 3 ≤ gmlevel ∧ gmlevel ≤ 10

/-- The players in the world and the settings a channel reads
(`CONFIG_ALLOW_TWO_SIDE_INTERACTION_CHANNEL`, `CONFIG_RESTRICTED_LFG_CHANNEL`). -/
structure World where
  players : Table Player.guid
  allowTwoSideInteractionChannel : Bool
  restrictedLfgChannel : Bool

/-- `ObjectAccessor::FindPlayerByName`: the first player whose name is the same
up to the case of ASCII letters. -/
def World.findPlayerByName (w : World) (name : WString) : Option Player :=
  w.players.rows.find? fun p => p.name.map tolower = name.map tolower

/-! ### Members -/

def memberFlagNone : BitVec 8 := 0x00
def memberFlagOwner : BitVec 8 := 0x01
def memberFlagModerator : BitVec 8 := 0x02
def memberFlagMuted : BitVec 8 := 0x08

def channelFlagCustom : BitVec 8 := 0x01
def channelFlagLfg : BitVec 8 := 0x40

structure PlayerInfo where
  player : ℕ
  flags : BitVec 8
  deriving DecidableEq

namespace PlayerInfo

/-- `flags & flag`. -/
def hasFlag (i : PlayerInfo) (flag : BitVec 8) : Bool := i.flags &&& flag ≠ 0

/-- The body shared by `SetOwner`, `SetModerator` and `SetMuted`: one bit on or off. -/
def setBit (flag : BitVec 8) (state : Bool) (i : PlayerInfo) : PlayerInfo :=
  { i with flags := if state then i.flags ||| flag else i.flags &&& ~~~flag }

def isOwner (i : PlayerInfo) : Bool := i.hasFlag memberFlagOwner
def isModerator (i : PlayerInfo) : Bool := i.hasFlag memberFlagModerator
def setOwner : Bool → PlayerInfo → PlayerInfo := setBit memberFlagOwner
def setModerator : Bool → PlayerInfo → PlayerInfo := setBit memberFlagModerator
def setMuted : Bool → PlayerInfo → PlayerInfo := setBit memberFlagMuted

end PlayerInfo

/-- `std::map<uint64, PlayerInfo>`. -/
abbrev PlayerContainer := Table (Prod.fst : ℕ × PlayerInfo → ℕ)

namespace PlayerContainer

/-- A write through `playersStore[guid]`: an entry that is not there is created
first, all zero. -/
def subscript (t : PlayerContainer) (guid : ℕ) (f : PlayerInfo → PlayerInfo) : PlayerContainer :=
  t.put (guid, f (((t.get? guid).map Prod.snd).getD ⟨0, 0⟩))

/-- `begin()`: the entry with the least key. -/
def first (t : PlayerContainer) : Option (ℕ × PlayerInfo) := t.rows.argmin Prod.fst

end PlayerContainer

/-! ### The channel -/

/-- The notices a refused request is answered with. -/
inductive ChatNotify where
  | wrongPassword
  | notMember
  | notModerator
  | playerNotFound (name : WString)
  | notOwner
  | banned
  | playerAlreadyMember
  | notInLfg

structure Channel where
  announce : Bool
  ownership : Bool
  flags : BitVec 8
  channelId : ℕ
  ownerGUID : ℕ
  password : String
  playersStore : PlayerContainer
  bannedStore : Finset ℕ

namespace Channel

variable (c : Channel) (w : World) (player : Player)

/-- The constructor on a custom channel (`channelId` `0`) with ownership, with
what it loads from the database or its defaults (`true`, `""`, nobody banned). -/
def newCustom (announce : Bool) (password : String) (banned : Finset ℕ) : Channel where
  announce := announce
  ownership := true
  flags := channelFlagCustom
  channelId := 0
  ownerGUID := 0
  password := password
  playersStore := Table.empty _
  bannedStore := banned

def isConstant : Bool := c.channelId ≠ 0

def hasFlag (flag : BitVec 8) : Bool := c.flags &&& flag ≠ 0

def isOn (who : ℕ) : Bool := (c.playersStore.get? who).isSome

def isBanned (guid : ℕ) : Bool := guid ∈ c.bannedStore

/-- `playersStore[guid].IsModerator()` of somebody who is on the channel. -/
def isModerator (guid : ℕ) : Bool := (c.playersStore.get? guid).any fun row => row.2.isModerator

/-- A write through `playersStore[guid]`. -/
def subscript (guid : ℕ) (f : PlayerInfo → PlayerInfo) : Channel :=
  { c with playersStore := c.playersStore.subscript guid f }

/-- `playersStore[guid] = pinfo`, the entry of somebody who joins. -/
def addMember (guid : ℕ) : Channel :=
  { c with playersStore := c.playersStore.put (guid, ⟨guid, memberFlagNone⟩) }

/-- `playersStore.erase(guid)`. -/
def erase (guid : ℕ) : Channel := { c with playersStore := c.playersStore.erase guid }

/-- What `KickOrBan` does to the victim. -/
def removeMember (victim : ℕ) (ban : Bool) : Channel :=
  { c.erase victim with bannedStore := if ban then insert victim c.bannedStore else c.bannedStore }

/-- The first half of `SetOwner(uint64 guid)`: the old owner, if still there,
loses the owner flag. -/
def dropOwner : Channel :=
  if c.ownerGUID ≠ 0 ∧ c.isOn c.ownerGUID then
    c.subscript c.ownerGUID (PlayerInfo.setOwner false)
  else c

/-- `SetOwner(uint64 guid)`: the old owner loses the owner flag and `guid` gets it. -/
def setOwner (guid : ℕ) : Channel :=
  let c := { c.dropOwner with ownerGUID := guid }
  if guid ≠ 0 then
    (c.subscript guid (PlayerInfo.setModerator true)).subscript guid (PlayerInfo.setOwner true)
  else c

def joinChannel (pass : String) : Except ChatNotify Channel :=
  if c.isOn player.guid then .error .playerAlreadyMember
  else if c.isBanned player.guid then .error .banned
  else if c.password ≠ "" ∧ pass ≠ c.password then .error .wrongPassword
  else if c.hasFlag channelFlagLfg ∧ w.restrictedLfgChannel ∧ isPlayerAccount player.security ∧
      player.inGroup then .error .notInLfg
  else
    -- the first member of a custom channel becomes its owner
    if ¬ c.isConstant ∧ c.ownerGUID = 0 ∧ c.ownership then
      .ok (((c.addMember player.guid).setOwner player.guid).subscript player.guid
        (PlayerInfo.setModerator true))
    else .ok (c.addMember player.guid)

/-- `LeaveChannel`: an owner who leaves hands over to the first member, found by
the guid stored in its entry. -/
def leaveChannel (guid : ℕ) : Except ChatNotify Channel :=
  match c.playersStore.get? guid with
  | none => .error .notMember
  | some row =>
    let changeowner := row.2.isOwner
    let c := c.erase guid
    if ¬ c.isConstant ∧ changeowner ∧ c.ownership then
      match c.playersStore.first with
      | none => .ok c
      | some (_, i) => .ok ((c.subscript i.player (PlayerInfo.setModerator true)).setOwner i.player)
    else .ok c

/-- `KickOrBan`: if the owner is removed, whoever asked for it becomes the owner. -/
def kickOrBan (badname : WString) (ban : Bool) : Except ChatNotify Channel :=
  let good := player.guid
  if ¬ c.isOn good then .error .notMember
  else if ¬ c.isModerator good ∧ ¬ isGMAccount player.security then .error .notModerator
  else match w.findPlayerByName badname with
    | none => .error (.playerNotFound badname)
    | some bad =>
      let victim := bad.guid
      let changeowner := c.ownerGUID = victim
      if ¬ c.isOn victim then .error (.playerNotFound badname)
      else if ¬ isGMAccount player.security ∧ changeowner ∧ good ≠ c.ownerGUID then
        .error .notOwner
      else
        let c := c.removeMember victim ban
        if changeowner ∧ c.ownership ∧ c.playersStore.rows ≠ [] then
          .ok ((c.subscript good (PlayerInfo.setModerator true)).setOwner good)
        else .ok c

def unBan (badname : WString) : Except ChatNotify Channel :=
  if ¬ c.isOn player.guid then .error .notMember
  else if ¬ c.isModerator player.guid ∧ ¬ isGMAccount player.security then .error .notModerator
  else match w.findPlayerByName badname with
    | none => .error (.playerNotFound badname)
    | some bad =>
      if c.isBanned bad.guid then .ok { c with bannedStore := c.bannedStore.erase bad.guid }
      else .error (.playerNotFound badname)

/-- `Password`. -/
def setPassword (pass : String) : Except ChatNotify Channel :=
  if ¬ c.isOn player.guid then .error .notMember
  else if ¬ c.isModerator player.guid ∧ ¬ isGMAccount player.security then .error .notModerator
  else .ok { c with password := pass }

/-- `Announce`. -/
def toggleAnnounce : Except ChatNotify Channel :=
  if ¬ c.isOn player.guid then .error .notMember
  else if ¬ c.isModerator player.guid ∧ ¬ isGMAccount player.security then .error .notModerator
  else .ok { c with announce := !c.announce }

/-- `SetMode`: the moderator flag (`mod`) or the muted flag of a member, on or off. -/
def setMode (p2n : WString) (mod set : Bool) : Except ChatNotify Channel :=
  let guid := player.guid
  if ¬ c.isOn guid then .error .notMember
  else if ¬ c.isModerator guid ∧ ¬ isGMAccount player.security then .error .notModerator
  else if guid = c.ownerGUID ∧ p2n = player.name ∧ mod then .ok c
  else match w.findPlayerByName p2n with
    | none => .error (.playerNotFound p2n)
    | some newp =>
      let victim := newp.guid
      -- a moderator of the other team is made by and of game masters only
      if ¬ c.isOn victim ∨ ((¬ isGMAccount player.security ∨ ¬ isGMAccount newp.security) ∧
          player.team ≠ newp.team ∧ ¬ w.allowTwoSideInteractionChannel) then
        .error (.playerNotFound p2n)
      else if c.ownerGUID = victim ∧ c.ownerGUID ≠ guid then .error .notOwner
      else if mod then .ok (c.subscript victim (PlayerInfo.setModerator set))
      else .ok (c.subscript victim (PlayerInfo.setMuted set))

/-- `SetOwner(Player const*, std::string const&)`. -/
def setOwnerByName (newname : WString) : Except ChatNotify Channel :=
  if ¬ c.isOn player.guid then .error .notMember
  else if ¬ isGMAccount player.security ∧ player.guid ≠ c.ownerGUID then .error .notOwner
  else match w.findPlayerByName newname with
    | none => .error (.playerNotFound newname)
    | some newp =>
      if ¬ c.isOn newp.guid ∨
          (newp.team ≠ player.team ∧ ¬ w.allowTwoSideInteractionChannel) then
        .error (.playerNotFound newname)
      else .ok ((c.subscript newp.guid (PlayerInfo.setModerator true)).setOwner newp.guid)

end Channel

/-! ### Requests -/

/-- What a client may ask of a channel, names as it sends them. -/
inductive Action where
  | join (pass : String)
  | leave
  | kick (name : WString)
  | ban (name : WString)
  | unBan (name : WString)
  | setMode (name : WString) (mod set : Bool)
  | setOwner (name : WString)
  | password (pass : String)
  | announce

/-- An action of a player who is in the world. -/
structure Request where
  world : World
  player : Player
  inWorld : player ∈ world.players.rows
  action : Action

/-- A handler that takes a name normalizes it first and gives up if it cannot. -/
def named (c : Channel) (name : WString) (k : WString → Except ChatNotify Channel) :
    Except ChatNotify Channel :=
  match normalizePlayerName name with
  | none => .ok c
  | some name => k name

def Channel.handle (c : Channel) (r : Request) : Except ChatNotify Channel :=
  match r.action with
  | .join pass => c.joinChannel r.world r.player pass
  | .leave => c.leaveChannel r.player.guid
  | .kick name => named c name fun name => c.kickOrBan r.world r.player name false
  | .ban name => named c name fun name => c.kickOrBan r.world r.player name true
  | .unBan name => named c name fun name => c.unBan r.world r.player name
  | .setMode name mod set => named c name fun name => c.setMode r.world r.player name mod set
  | .setOwner name => named c name fun name => c.setOwnerByName r.world r.player name
  | .password pass => c.setPassword r.player pass
  | .announce => c.toggleAnnounce r.player

/-- The channel when a request has been answered: as it was if refused. -/
def Channel.answer (c : Channel) (r : Request) : Channel :=
  match c.handle r with
  | .ok c' => c'
  | .error _ => c

/-- `ChannelMgr::LeftChannel`, called after every `LeaveChannel`: a custom
channel nobody is in is deleted. -/
def Channel.leftChannel (c : Channel) : Option Channel :=
  if c.playersStore.rows = [] ∧ ¬ c.isConstant then none else some c

/-- One request to the channel of some name, `none` once it has been deleted. -/
def serve : Option Channel → Request → Option Channel
  | none, _ => none
  | some c, r =>
    match r.action with
    | .leave => (c.answer r).leftChannel
    | _ => some (c.answer r)

end ZerosCore.Chat
