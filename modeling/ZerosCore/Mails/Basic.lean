/-
# Mail

`src/server/game/Handlers/MailHandler.cpp`, `src/server/game/Mails/Mail.cpp`,
`Mail.h`, and of `src/server/game/Entities/Player/Player.cpp` the functions
`_LoadMail`, `_LoadMailedItems`, `_SaveMail`, `GetMail` and `RemoveMail`.

A mail is a row of the tables `mail` and `mail_items`; while its receiver is in
the world and has opened a mailbox there is also the `Mail` object of the
receiver's `m_mail` (`Mail.copy`).  The two hold the same amounts in different
widths and are brought together by `_SaveMail` only.  The items of all loaded
mails lie in one map of the receiver (`mItems`), apart from the mails.

A handler is given what it asks of the rest of the server (`Env`); these answers
may differ from one step to the next.  Left out are subjects, bodies, stationery,
read marks, mail templates and expiry.
-/

import ZerosCore.Lib.Keyed
import ZerosCore.Player.Item
import ZerosCore.Player.Money
import Mathlib.Data.List.Dedup

namespace ZerosCore.Mails

open Lib Player Option

/-! ### Data -/

def maxMailItems : ℕ := 12

inductive MailMessageType where
  | normal | auction | creature | gameobject | calendar
  deriving DecidableEq

inductive MailState where
  | unchanged | changed | deleted
  deriving DecidableEq

/-- `MailResponseResult`, the codes the handlers send. -/
inductive MailResponseResult where
  | ok | equipError (msg : InventoryResult) | cannotSendToSelf | notEnoughMoney
  | recipientNotFound | notYourTeam | internalError | recipientCapReached | cantSendWrappedCod
  | tooManyAttachments | mailAttachmentInvalid

/-- The `Mail` object in the receiver's `m_mail`; an item is its low guid. -/
structure Copy where
  money : UInt64
  cod : UInt64
  items : List UInt32
  removedItems : List UInt32 := []
  state : MailState := .unchanged

/-- A row of `mail` with its rows of `mail_items`, and the object loaded from it. -/
structure Mail where
  id : UInt32
  messageType : MailMessageType
  sender : UInt32
  receiver : UInt32
  deliverTime : ℕ
  money : UInt32
  cod : UInt32
  hasItems : Bool
  items : List UInt32
  copy : Option Copy

/-- A character of the realm; guids and accounts start at one. -/
structure Character where
  guid : UInt32
  money : ℕ
  bags : List UInt32 := []
  level : UInt32 := 1
  team : UInt32 := 469
  accountId : UInt32
  online : Bool := false
  mailsLoaded : Bool := false
  mailsUpdated : Bool := false
  mItems : List UInt32 := []
  guid_ne : guid ≠ 0 := by decide
  account_ne : accountId ≠ 0 := by decide

/-- The characters, the mails and `ObjectMgr::_mailId`. -/
structure State where
  players : Keyed.Table Character.guid
  mails : Keyed.Table Mail.id
  mailId : UInt32

/-- What `HandleSendMail` asks of an item. -/
structure ItemInfo where
  canBeTraded : Bool := true
  boundAccountWide : Bool := false
  soulBound : Bool := false
  /-- `ITEM_PROTO_FLAG_BIND_TO_ACCOUNT`. -/
  bindToAccount : Bool := false
  conjured : Bool := false
  duration : UInt32 := 0
  wrapped : Bool := false
  isNotEmptyBag : Bool := false

/-- What a handler asks of the rest of the server. -/
structure Env where
  now : ℕ
  /-- `GetGameObjectIfCanInteractWith(guid, GAMEOBJECT_TYPE_MAILBOX)`. -/
  canInteract : UInt64 → Bool
  /-- `GetPlayerGUIDByName` of the normalized name, `0` for none. -/
  playerGuidByName : String → UInt32
  /-- `CONFIG_MAIL_LEVEL_REQ`. -/
  mailLevelReq : UInt32
  /-- `CONFIG_ALLOW_TWO_SIDE_INTERACTION_MAIL`. -/
  twoSideInteraction : Bool
  /-- `CONFIG_MAIL_DELIVERY_DELAY`. -/
  mailDeliveryDelay : ℕ
  item : UInt32 → ItemInfo
  /-- `CanStoreItem(NULL_BAG, NULL_SLOT, dest, it, false)`. -/
  canStoreItem : UInt32 → InventoryResult
  /-- `MoveItemToInventory` merges the item into stacks and deletes it. -/
  merges : UInt32 → Bool

/-- What a client sends in `CMSG_SEND_MAIL`. -/
structure SendRequest where
  mailbox : UInt64
  receiver : String
  itemGuids : List UInt64 := []
  money : UInt64 := 0
  cod : UInt64 := 0

/-- `MailDraft`; `AddCOD` takes a `uint32`. -/
structure MailDraft where
  items : List UInt32 := []
  money : UInt64 := 0
  cod : UInt32 := 0

namespace State

/-! ### Lookups -/

def findPlayer (s : State) (guid : UInt32) : Option Character :=
  (s.players.get? guid).filter (·.online)

/-- `GetPlayerAccountIdByGUID`, `0` for a character that is gone. -/
def accountIdOf (s : State) (guid : UInt32) : UInt32 :=
  ((s.players.get? guid).map (·.accountId)).getD 0

/-- The character is in the world or its account is found. -/
def existsPlayer (s : State) (guid : UInt32) : Bool :=
  (s.findPlayer guid).isSome || s.accountIdOf guid ≠ 0

def getMail (s : State) (player id : UInt32) : Option (Mail × Copy) :=
  (s.mails.get? id).bind fun m => if m.receiver = player then m.copy.map fun c => (m, c) else none

/-- The mail, if it is there, not deleted and delivered. -/
def openMail (s : State) (env : Env) (player id : UInt32) : Option (Mail × Copy) :=
  (s.getMail player id).filter fun (m, c) => c.state ≠ .deleted && !(m.deliverTime > env.now)

/-- `mails_count` of `HandleSendMail`, a `uint8`: the loaded mails of a player in
the world, the rows of another one. -/
def mailsCount (s : State) (guid : UInt32) : UInt8 :=
  UInt8.ofNat <|
    if (s.findPlayer guid).isSome then
      s.mails.rows.countP fun m => m.receiver = guid && m.copy.isSome
    else s.mails.rows.countP fun m => m.receiver = guid

def moneyOf (s : State) (player : UInt32) : ℕ := ((s.players.get? player).map (·.money)).getD 0

/-! ### Writes -/

/-- A write to the fields of a player. -/
def modifyPlayer (s : State) (player : UInt32) (f : Character → Character)
    (hf : ∀ p, (f p).guid = p.guid) : State :=
  { s with players := s.players.modify player f hf }

/-- `player->ModifyMoney(d)`. -/
def modifyMoney (s : State) (player : UInt32) (d : ℤ) : State :=
  s.modifyPlayer player (fun p => { p with money := Player.modifyMoney p.money d }) fun _ => rfl

/-- `player->m_mailsUpdated = true`. -/
def setMailsUpdated (s : State) (player : UInt32) : State :=
  s.modifyPlayer player (fun p => { p with mailsUpdated := true }) fun _ => rfl

/-- A write to the object of a mail. -/
def setCopy (s : State) (id : UInt32) (c : Copy) : State :=
  { s with mails := s.mails.modify id (fun m => { m with copy := some c }) fun _ => rfl }

def isMailsLoaded (s : State) (receiver : UInt32) : Bool :=
  (s.findPlayer receiver).any (·.mailsLoaded)

/-- The row `SendMailTo` writes for a normal mail, and the object if the receiver has
loaded its mails. -/
def newMail (s : State) (env : Env) (d : MailDraft) (receiver sender : UInt32) (delay : ℕ) :
    Mail where
  id := s.mailId
  messageType := .normal
  sender := sender
  receiver := receiver
  deliverTime := env.now + delay
  money := d.money.toUInt32
  cod := d.cod
  hasItems := !d.items.isEmpty
  items := d.items
  copy :=
    if s.isMailsLoaded receiver then
      some { money := d.money, cod := d.cod.toUInt64, items := d.items }
    else none

def sendMailTo (s : State) (env : Env) (d : MailDraft) (receiver sender : UInt32) (delay : ℕ) :
    State :=
  { s with
    mails := s.mails.put (s.newMail env d receiver sender delay)
    mailId := s.mailId + 1
    players := s.players.modify receiver
      (fun p => { p with
        mItems := if s.isMailsLoaded receiver then p.mItems ++ d.items else p.mItems })
      fun _ => rfl }

/-- The items `_SaveMail` deletes from `mail_items`, whatever mail they are of. -/
def removedBy (s : State) (player : UInt32) : List UInt32 :=
  s.mails.rows.flatMap fun m =>
    match m.copy with
    | some c => if m.receiver = player && c.state = .changed then c.removedItems else []
    | none => []

/-- What `_SaveMail` of `player` does to one mail: a deleted one goes, a changed
one is written to its row. -/
def saveOne (player : UInt32) (removed : List UInt32) (m : Mail) : Option Mail :=
  let m := { m with items := m.items.filter (· ∉ removed) }
  match m.copy with
  | none => some m
  | some c =>
    if m.receiver ≠ player then some m
    else match c.state with
      | .unchanged => some m
      | .changed => some { m with
          hasItems := !c.items.isEmpty, money := c.money.toUInt32, cod := c.cod.toUInt32
          copy := some { c with removedItems := [], state := .unchanged } }
      | .deleted => none

variable {player : UInt32}

theorem id_saveOne {removed : List UInt32} (m m' : Mail)
    (h : saveOne player removed m = some m') : m'.id = m.id := by
  unfold saveOne at h
  dsimp only at h
  split at h
  · rw [← some.inj h]
  split at h
  · rw [← some.inj h]
  split at h
  · rw [← some.inj h]
  · rw [← some.inj h]
  · cases h

def saveMail (s : State) (player : UInt32) : State :=
  if !((s.players.get? player).any (·.mailsLoaded)) then s
  else
    let s := { s with
      mails := s.mails.filterMap (saveOne player (s.removedBy player)) id_saveOne }
    s.modifyPlayer player (fun p => { p with mailsUpdated := false }) fun _ => rfl

/-- The object `_LoadMail` makes of a row. -/
def loadOne (player : UInt32) (m : Mail) : Mail :=
  if m.receiver = player then
    { m with copy := some {
        money := m.money.toUInt64
        cod := m.cod.toUInt64
        items := if m.hasItems then m.items else [] } }
  else m

theorem id_loadOne (m m' : Mail) (h : some (loadOne player m) = some m') : m'.id = m.id := by
  rw [← some.inj h, loadOne]
  split <;> rfl

/-- `_LoadMail`, if the mails are not loaded. -/
def loadMail (s : State) (p : Character) : State :=
  if p.mailsLoaded then s
  else
    let s := { s with mails := s.mails.filterMap (fun m => some (loadOne p.guid m)) id_loadOne }
    let loaded := s.mails.rows.flatMap fun m =>
      if m.receiver = p.guid then (m.copy.map (·.items)).getD [] else []
    s.modifyPlayer p.guid
      (fun p => { p with mailsLoaded := true, mItems := p.mItems ++ loaded }) fun _ => rfl

/-- The row alone, for a mail of `player`. -/
def dropOne (player : UInt32) (m : Mail) : Mail :=
  if m.receiver = player then { m with copy := none } else m

theorem id_dropOne (m m' : Mail) (h : some (dropOne player m) = some m') : m'.id = m.id := by
  rw [← some.inj h, dropOne]
  split <;> rfl

/-- The mails without the objects of a player. -/
def dropCopies (s : State) (player : UInt32) : State :=
  { s with mails := s.mails.filterMap (fun m => some (dropOne player m)) id_dropOne }

/-! ### Sending -/

/-- `cost` of `HandleSendMail`. -/
def postage (r : SendRequest) : UInt32 :=
  if r.itemGuids.length ≠ 0 then 30 * UInt32.ofNat r.itemGuids.length else 30

/-- `reqmoney` of `HandleSendMail`. -/
def reqmoney (r : SendRequest) : UInt64 := (postage r).toUInt64 + r.money

def getItemByGuid (p : Character) (guid : UInt64) : Option UInt32 :=
  p.bags.find? fun low => itemGuid low = guid

/-- All the attached items that are found are bound to the account. -/
def accountBound (env : Env) (p : Character) (r : SendRequest) : Bool :=
  r.itemGuids.length ≠ 0 && r.itemGuids.all fun guid =>
    (getItemByGuid p guid).all fun low => (env.item low).bindToAccount

/-- The item loop of `HandleSendMail`. -/
def collectItems (env : Env) (p : Character) (rcAccount : UInt32) (cod : UInt64) :
    List UInt64 → Except MailResponseResult (List UInt32)
  | [] => .ok []
  | guid :: rest =>
    if guid = 0 then .error .mailAttachmentInvalid
    else match getItemByGuid p guid with
      | none => .error .mailAttachmentInvalid
      | some low =>
        let item := env.item low
        if !item.canBeTraded then .error (.equipError .mailBoundItem)
        else if item.boundAccountWide && item.soulBound && p.accountId ≠ rcAccount then
          .error (.equipError .notSameAccount)
        else if item.conjured || item.duration ≠ 0 then .error (.equipError .mailBoundItem)
        else if cod ≠ 0 && item.wrapped then .error .cantSendWrappedCod
        else if item.isNotEmptyBag then .error (.equipError .destroyNonemptyBag)
        else do
          let items ← collectItems env p rcAccount cod rest
          return low :: items

/-- The checks of `HandleSendMail`, in order: the receiver and the items, or what
the client is told. -/
def sendChecks (s : State) (env : Env) (p : Character) (r : SendRequest) :
    Except (Option MailResponseResult) (UInt32 × List UInt32) :=
  if r.itemGuids.length > maxMailItems then .error (some .tooManyAttachments)
  else if !env.canInteract r.mailbox then .error none
  else if r.receiver.isEmpty then .error none
  else if p.level < env.mailLevelReq then .error none
  else
    let rc := env.playerGuidByName r.receiver
    if rc = 0 then .error (some .recipientNotFound)
    else if p.guid = rc then .error (some .cannotSendToSelf)
    else if !hasEnoughMoney p.money (reqmoney r) then .error (some .notEnoughMoney)
    else if s.mailsCount rc > 100 then .error (some .recipientCapReached)
    else if !accountBound env p r && !env.twoSideInteraction &&
        p.team ≠ ((s.players.get? rc).map (·.team)).getD 0 then .error (some .notYourTeam)
    else if ((s.players.get? rc).map (·.level)).getD 0 < env.mailLevelReq then .error none
    else match collectItems env p (s.accountIdOf rc) r.cod r.itemGuids with
      | .error e => .error (some e)
      | .ok items => .ok (rc, items)

/-- `HandleSendMail`.  The draft keeps its items in a map, so an item attached twice
is sent once. -/
def handleSendMail (s : State) (env : Env) (p : Character) (r : SendRequest) :
    State × Option MailResponseResult :=
  match s.sendChecks env p r with
  | .error e => (s, e)
  | .ok (rc, items) =>
    let delay :=
      if items ≠ [] && p.accountId ≠ s.accountIdOf rc then env.mailDeliveryDelay else 0
    let s := s.modifyMoney p.guid (-int64 (reqmoney r))
    let s := s.modifyPlayer p.guid
      (fun p => { p with bags := p.bags.filter (· ∉ items) }) fun _ => rfl
    let draft : MailDraft := { items := items.dedup, money := r.money, cod := r.cod.toUInt32 }
    (s.sendMailTo env draft rc p.guid delay, some .ok)

/-- A mail is sent: its sender pays and gives the items away. -/
def sent (s : State) (env : Env) (p : Character) (r : SendRequest) (rc : UInt32)
    (items : List UInt32) (delay : ℕ) : State :=
  ((s.modifyMoney p.guid (-int64 (reqmoney r))).modifyPlayer p.guid
    (fun p => { p with bags := p.bags.filter (· ∉ items) }) fun _ => rfl).sendMailTo env
      { items := items.dedup, money := r.money, cod := r.cod.toUInt32 } rc p.guid delay

/-! ### Taking -/

/-- The accepted branch of `HandleMailTakeMoney`. -/
def takeMoney (s : State) (p : Character) (mailId : UInt32) (c : Copy) (money : UInt64) : State :=
  let s := s.modifyMoney p.guid (int64 money)
  let s := s.setMailsUpdated p.guid
  let s := s.setCopy mailId { c with money := 0, state := .changed }
  s.saveMail p.guid

def handleMailTakeMoney (s : State) (env : Env) (p : Character) (mailbox : UInt64)
    (mailId : UInt32) (money : UInt64) : State × Option MailResponseResult :=
  if !env.canInteract mailbox then (s, none)
  else match s.openMail env p.guid mailId with
    | none => (s, some .internalError)
    | some (_, c) =>
      if money > 0 && c.money ≠ money then (s, some .internalError)
      else
        (s.takeMoney p mailId c money, some .ok)

/-- The COD of a mail is mailed to its sender and charged.  The cast is to `int32`,
whose negation is undefined at `-2^31`. -/
def payCod (s : State) (env : Env) (p : Character) (m : Mail) (c : Copy) : State :=
  if c.cod > 0 then
    let s := if s.existsPlayer m.sender then
        s.sendMailTo env { money := c.cod } m.sender m.receiver 0
      else s
    s.modifyMoney p.guid (-int32 c.cod.toUInt32)
  else s

/-- `RemoveMItem` and `MoveItemToInventory`. -/
def moveToInventory (s : State) (env : Env) (player itemId : UInt32) : State :=
  s.modifyPlayer player
    (fun p => { p with
      mItems := p.mItems.filter (· ≠ itemId)
      bags := if env.merges itemId then p.bags else p.bags ++ [itemId] }) fun _ => rfl

/-- The accepted branch of `HandleMailTakeItem`.  The result of `RemoveItem` is not
looked at. -/
def takeItem (s : State) (env : Env) (p : Character) (m : Mail) (c : Copy) (itemId : UInt32) :
    State :=
  let s := s.payCod env p m c
  let s := s.setMailsUpdated p.guid
  let s := s.setCopy m.id { c with
    items := c.items.erase itemId, removedItems := c.removedItems ++ [itemId], cod := 0
    state := .changed }
  (s.moveToInventory env p.guid itemId).saveMail p.guid

def handleMailTakeItem (s : State) (env : Env) (p : Character) (mailbox : UInt64)
    (mailId itemId : UInt32) : State × Option MailResponseResult :=
  if !env.canInteract mailbox then (s, none)
  else match s.openMail env p.guid mailId with
    | none => (s, some .internalError)
    | some (m, c) =>
      if !hasEnoughMoney p.money c.cod then (s, some .notEnoughMoney)
      else
        let msg := if itemId ∈ p.mItems then env.canStoreItem itemId else .itemNotFound
        if msg = .ok then (s.takeItem env p m c itemId, some .ok)
        else (s, some (.equipError msg))

/-! ### Returning, deleting, reading -/

/-- `SendReturnToSender`: nothing is sent to a character that is gone, and its items
are deleted. -/
def sendReturnToSender (s : State) (env : Env) (d : MailDraft)
    (senderAcc sender receiver : UInt32) : State :=
  if !s.existsPlayer receiver then s
  else
    -- The account is looked up for a receiver that is not in the world.
    let rcAccount := if (s.findPlayer receiver).isSome then 0 else s.accountIdOf receiver
    let delay := if d.items ≠ [] && senderAcc ≠ rcAccount then env.mailDeliveryDelay else 0
    s.sendMailTo env d receiver sender delay

/-- The accepted branch of `HandleMailReturnToSender`. -/
def returnMail (s : State) (env : Env) (p : Character) (m : Mail) (c : Copy) : State :=
  let s := { s with mails := s.mails.erase m.id }
  if m.messageType = .normal && m.sender ≠ 0 then
    let items := c.items.filter (· ∈ p.mItems)
    let s := s.modifyPlayer p.guid
      (fun p => { p with mItems := p.mItems.filter (· ∉ c.items) }) fun _ => rfl
    s.sendReturnToSender env { items := items.dedup, money := c.money } p.accountId m.receiver
      m.sender
  else s

def handleMailReturnToSender (s : State) (env : Env) (p : Character) (mailbox : UInt64)
    (mailId : UInt32) : State × Option MailResponseResult :=
  if !env.canInteract mailbox then (s, none)
  else match s.openMail env p.guid mailId with
    | none => (s, some .internalError)
    | some (m, c) => (s.returnMail env p m c, some .ok)

def handleMailDelete (s : State) (env : Env) (p : Character) (mailbox : UInt64)
    (mailId : UInt32) : State × Option MailResponseResult :=
  if !env.canInteract mailbox then (s, none)
  else
    let s := s.setMailsUpdated p.guid
    match s.getMail p.guid mailId with
    | none => (s, some .ok)
    | some (_, c) =>
      if c.cod ≠ 0 then (s, some .internalError)
      else (s.setCopy mailId { c with state := .deleted }, some .ok)

def handleMailMarkAsRead (s : State) (env : Env) (p : Character) (mailbox : UInt64)
    (mailId : UInt32) : State :=
  if !env.canInteract mailbox then s
  else match s.getMail p.guid mailId with
    | none => s
    | some (_, c) =>
      if c.state = .deleted then s
      else (s.setMailsUpdated p.guid).setCopy mailId { c with state := .changed }

/-! ### Entering and leaving the world -/

/-- `Player::SaveToDB`, its mails. -/
def saveToDB (s : State) (p : Character) : State :=
  if p.mailsUpdated then s.saveMail p.guid else s

/-- A new `Player` object: no mail is loaded. -/
def login (s : State) (player : UInt32) : State :=
  match s.players.get? player with
  | none => s
  | some p =>
    if p.online then s
    else s.modifyPlayer player
      (fun p => { p with
        online := true, mailsLoaded := false, mailsUpdated := false, mItems := [] })
      fun _ => rfl

/-- The player is saved and its object destroyed. -/
def logout (s : State) (p : Character) : State :=
  ((s.saveToDB p).dropCopies p.guid).modifyPlayer p.guid
    (fun p => { p with
      online := false, mailsLoaded := false, mailsUpdated := false, mItems := [] })
    fun _ => rfl

end State

/-! ### Steps -/

/-- What a client asks, and a player's coming and going. -/
inductive Action where
  | send (r : SendRequest)
  | takeMoney (mailbox : UInt64) (mailId : UInt32) (money : UInt64)
  | takeItem (mailbox : UInt64) (mailId itemId : UInt32)
  | returnToSender (mailbox : UInt64) (mailId : UInt32)
  | delete (mailbox : UInt64) (mailId : UInt32)
  | markAsRead (mailbox : UInt64) (mailId : UInt32)
  /-- `HandleGetMailList` or `HandleQueryNextMailTime`. -/
  | loadMail
  | save
  | logout

/-- A character enters the world, or one in the world acts. -/
inductive Step where
  | login (player : UInt32)
  | act (player : UInt32) (a : Action)

/-- What an action of the player `p` does, and what the client is told. -/
def State.act (s : State) (env : Env) (p : Character) : Action → State × Option MailResponseResult
  | .send r => s.handleSendMail env p r
  | .takeMoney mailbox mailId money => s.handleMailTakeMoney env p mailbox mailId money
  | .takeItem mailbox mailId itemId => s.handleMailTakeItem env p mailbox mailId itemId
  | .returnToSender mailbox mailId => s.handleMailReturnToSender env p mailbox mailId
  | .delete mailbox mailId => s.handleMailDelete env p mailbox mailId
  | .markAsRead mailbox mailId => (s.handleMailMarkAsRead env p mailbox mailId, none)
  | .loadMail => (s.loadMail p, none)
  | .save => (s.saveToDB p, none)
  | .logout => (s.logout p, none)

/-- One step; an action of nobody in the world does nothing. -/
def State.step (s : State) : Env × Step → State
  | (_, .login player) => s.login player
  | (env, .act player a) =>
    match s.findPlayer player with
    | none => s
    | some p => (s.act env p a).1

/-! ### A town -/

/-- A mailbox at hand, every item in order, and one name that is found. -/
def town (rc : UInt32) : Env where
  now := 100
  canInteract _ := true
  playerGuidByName _ := rc
  mailLevelReq := 1
  twoSideInteraction := false
  mailDeliveryDelay := 0
  item _ := {}
  canStoreItem _ := .ok
  merges _ := false

/-- No mails, and two players in the world, the second at the mailbox. -/
def firstDay : State where
  players := ⟨[{ guid := 1, money := 1000, bags := [7, 8], accountId := 1, online := true },
    { guid := 2, money := 500, accountId := 2, online := true, mailsLoaded := true }], by decide⟩
  mails := .empty _
  mailId := 1

def sendMoney (money : UInt64) : Env × Step :=
  (town 2, .act 1 (.send { mailbox := 1, receiver := "Second", money }))

/-- The first player sends an item for cash on delivery. -/
def sendItem (low : UInt32) (cod : UInt64) : Env × Step :=
  (town 2, .act 1 (.send { mailbox := 1, receiver := "Second", itemGuids := [itemGuid low], cod }))

end ZerosCore.Mails
