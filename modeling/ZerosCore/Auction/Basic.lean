/-
# The auction house

`src/server/game/AuctionHouse/AuctionHouseMgr.h`, `AuctionHouseMgr.cpp` and
`src/server/game/Handlers/AuctionHouseHandler.cpp`: the three auction maps, the
map of the items held by the auction house (`mAitems`), the mails it sends, and
the four ways it moves: `HandleAuctionSellItem`, `HandleAuctionPlaceBid`,
`HandleAuctionRemoveItem` and `AuctionHouseObject::Update`.

A handler is given what it asks of the rest of the server (`Env`): who is in the
world, whose character has an account, which creature a guid is and which house
it belongs to, and the three amounts computed in floating point.  These may
differ from one step to the next.  `Update` is given the ids its query returns,
whatever they are.

Not in the source is `Listing.paid`: the money taken from the current bidder, as
the change of the bidder's purse, and not yet returned.  Nothing reads it.
-/

import ZerosCore.Lib.Keyed
import ZerosCore.Player.Item
import ZerosCore.Player.Money
import Mathlib.Data.UInt

namespace ZerosCore.Auction

open Lib Player

/-! ### Constants -/

def maxAuctionItems : ℕ := 160
/-- `MIN_AUCTION_TIME`, twelve hours. -/
def minAuctionTime : UInt32 := 12 * 3600
def ahMinimumDeposit : UInt32 := 100

/-- `AuctionError`, the codes the handlers send. -/
inductive AuctionError where
  | ok | databaseError | notEnoughtMoney | itemNotFound | higherBid | bidOwn

/-- `MailAuctionAnswers`. -/
inductive MailAuctionAnswer where
  | outbidded | won | successful | expired | cancelledToBidder | canceled | salePending
  deriving DecidableEq

/-- The maps `mHordeAuctions`, `mAllianceAuctions` and `mNeutralAuctions`. -/
inductive House where
  | horde | alliance | neutral
  deriving DecidableEq

/-! ### Data -/

/-- `AuctionHouseEntry`, the fields read here. -/
structure HouseEntry where
  depositPercent : UInt32
  cutPercent : UInt32

/-- `AuctionEntry`; of `auctionHouseEntry` only the cut is read. -/
structure AuctionEntry where
  id : UInt32
  itemGuidLow : UInt32
  itemEntry : UInt32
  itemCount : UInt32
  owner : UInt32
  startbid : UInt32
  bid : UInt32
  buyout : UInt32
  bidder : UInt32
  deposit : UInt32
  cutPercent : UInt32

/-- An entry in one of the maps. -/
structure Listing where
  house : House
  entry : AuctionEntry
  paid : ℤ := 0

namespace Listing

def key (l : Listing) : House × UInt32 := (l.house, l.entry.id)

/-- The entry as a bid leaves it. -/
def setBid (bidder bid : UInt32) (paid : ℤ) (l : Listing) : Listing :=
  { l with entry := { l.entry with bidder, bid }, paid }

@[simp] theorem key_setBid (bidder bid : UInt32) (paid : ℤ) (l : Listing) :
    (l.setBid bidder bid paid).key = l.key := rfl

end Listing

/-- An item in a player's bags, with what the listing checks ask of it. -/
structure Item where
  guidLow : UInt32
  entry : UInt32
  count : UInt32
  maxStackCount : UInt32 := 1
  sellPrice : UInt32 := 0
  duration : UInt32 := 0
  canBeTraded : Bool := true
  isNotEmptyBag : Bool := false
  conjured : Bool := false
  deriving DecidableEq

/-- A character: low guids start at one, since `0` is "no bidder". -/
structure Character where
  guid : UInt32
  money : ℕ
  items : List Item := []
  guid_ne : guid ≠ 0 := by decide

structure SentMail where
  receiver : UInt32
  answer : MailAuctionAnswer
  money : UInt64 := 0
  items : List UInt32 := []
  deriving DecidableEq

/-- The auction house and the players' purses and bags. -/
structure State where
  players : Keyed.Table Character.guid
  auctions : Keyed.Table Listing.key
  aItems : List UInt32
  mails : List SentMail
  /-- `ObjectMgr::_auctionId`. -/
  auctionId : UInt32

/-- A creature the player can interact with as an auctioneer: the map of its
faction (`GetAuctionsMap`) and the house entry of it (`GetAuctionHouseEntry`). -/
structure Npc where
  house : House
  houseEntry : Option HouseEntry

/-- What a handler asks of the rest of the server. -/
structure Env where
  /-- `ObjectAccessor::FindPlayer`. -/
  online : UInt32 → Bool
  /-- `ObjectMgr::GetPlayerAccountIdByGUID`, `0` for a character that is gone. -/
  accountId : UInt32 → UInt32
  /-- `GetNPCIfCanInteractWith(guid, UNIT_NPC_FLAG_AUCTIONEER)`. -/
  npc : UInt64 → Option Npc
  /-- `CONFIG_GM_LOG_TRADE`. -/
  gmLogTrade : Bool
  /-- The float product of `GetAuctionDeposit`: percent, time, sell price, count. -/
  rawDeposit : UInt32 → UInt32 → UInt32 → UInt32 → UInt32
  /-- `GetAuctionCut` of a bid and a cut percentage. -/
  auctionCut : UInt32 → UInt32 → UInt32
  /-- `CalculatePct(bid, 5)`. -/
  calculatePct5 : UInt32 → UInt32
  /-- The guid `Item::CloneItem` generates. -/
  freshItem : UInt32

/-- The character is in the world or its account is found. -/
def Env.exists (env : Env) (guid : UInt32) : Bool := env.online guid || env.accountId guid ≠ 0

namespace AuctionEntry

def getAuctionCut (env : Env) (a : AuctionEntry) : UInt32 := env.auctionCut a.bid a.cutPercent

def getAuctionOutBid (env : Env) (a : AuctionEntry) : UInt32 :=
  let outbid := env.calculatePct5 a.bid
  if outbid ≠ 0 then outbid else 1

def isBid (a : AuctionEntry) (price : UInt64) : Bool := price < a.buyout.toUInt64 || a.buyout = 0

/-- The entry as a buyout leaves it. -/
def boughtOut (a : AuctionEntry) (player : UInt32) : AuctionEntry :=
  { a with bidder := player, bid := a.buyout }

/-- `uint32 profit` of `SendAuctionSuccessfulMail`. -/
def profit (env : Env) (a : AuctionEntry) : UInt32 := a.bid + a.deposit - a.getAuctionCut env

end AuctionEntry

def getAuctionDeposit (env : Env) (entry : HouseEntry) (time : UInt32) (item : Item)
    (count : UInt32) : UInt32 :=
  if item.sellPrice = 0 then ahMinimumDeposit
  else
    let deposit := env.rawDeposit entry.depositPercent time item.sellPrice count
    if deposit < ahMinimumDeposit then ahMinimumDeposit else deposit

/-! ### Mails

The mail each function sends, if it sends one. -/

/-- `SendAuctionWonMail`.  The account of an offline bidder is looked up for the
gm log only. -/
def sendAuctionWonMail (env : Env) (aItems : List UInt32) (a : AuctionEntry) : List SentMail :=
  if a.itemGuidLow ∉ aItems then []
  else
    let bidderAccId := if env.gmLogTrade then env.accountId a.bidder else 0
    if env.online a.bidder || bidderAccId ≠ 0 then
      [{ receiver := a.bidder, answer := .won, items := [a.itemGuidLow] }]
    else []

def sendAuctionSalePendingMail (env : Env) (a : AuctionEntry) : List SentMail :=
  if env.exists a.owner then [{ receiver := a.owner, answer := .salePending }] else []

def sendAuctionSuccessfulMail (env : Env) (a : AuctionEntry) : List SentMail :=
  if env.exists a.owner then
    [{ receiver := a.owner, answer := .successful, money := (a.profit env).toUInt64 }]
  else []

def sendAuctionExpiredMail (env : Env) (aItems : List UInt32) (a : AuctionEntry) : List SentMail :=
  if a.itemGuidLow ∉ aItems then []
  else if env.exists a.owner then
    [{ receiver := a.owner, answer := .expired, items := [a.itemGuidLow] }]
  else []

def sendAuctionOutbiddedMail (env : Env) (a : AuctionEntry) : List SentMail :=
  if env.exists a.bidder then
    [{ receiver := a.bidder, answer := .outbidded, money := a.bid.toUInt64 }]
  else []

def sendAuctionCancelledToBidderMail (env : Env) (a : AuctionEntry) : List SentMail :=
  if env.exists a.bidder then
    [{ receiver := a.bidder, answer := .cancelledToBidder, money := a.bid.toUInt64 }]
  else []

namespace State

/-! ### The parts of a step -/

/-- `player->ModifyMoney(d)`. -/
def modifyMoney (s : State) (player : UInt32) (d : ℤ) : State :=
  { s with
    players := s.players.modify player
      (fun p => { p with money := Player.modifyMoney p.money d }) fun _ => rfl }

def moneyOf (s : State) (player : UInt32) : ℕ := ((s.players.get? player).map (·.money)).getD 0

/-- `MailDraft::SendMailTo` of each mail. -/
def send (s : State) (ms : List SentMail) : State := { s with mails := s.mails ++ ms }

def removeAItem (s : State) (id : UInt32) : State := { s with aItems := s.aItems.filter (· ≠ id) }

def removeAuction (s : State) (l : Listing) : State :=
  { s with auctions := s.auctions.erase l.key }

/-- The end of every auction: its item is no longer held, its entry is erased. -/
def endAuction (s : State) (l : Listing) : State :=
  (s.removeAItem l.entry.itemGuidLow).removeAuction l

/-! ### Listing -/

/-- The item loop of `HandleAuctionSellItem`: every guid is an item of the
player, and every item may be listed, is of one entry and has the count. -/
def collectItems (s : State) (p : Character) :
    UInt32 → List (UInt64 × UInt32) → Except AuctionError (List (Item × UInt32))
  | _, [] => .ok []
  | itemEntry, (guid, count) :: rest =>
    match p.items.find? fun item => itemGuid item.guidLow = guid with
    | none => .error .itemNotFound
    | some item =>
      let itemEntry := if itemEntry = 0 then item.entry else itemEntry
      if item.guidLow ∈ s.aItems || !item.canBeTraded || item.isNotEmptyBag ||
          item.conjured || item.duration ≠ 0 || item.count < count ||
          itemEntry ≠ item.entry then .error .databaseError
      else do
        let items ← s.collectItems p itemEntry rest
        return (item, count) :: items

/-- The bags without what is listed: an item whose whole count is listed is
removed, another one loses the count. -/
def takeListed (bags : List Item) (listed : List (Item × UInt32)) : List Item :=
  listed.foldl (fun bags (item, count) =>
    if item.count = count then Keyed.erase Item.guidLow bags item.guidLow
    else Keyed.modify Item.guidLow bags item.guidLow
      fun item => { item with count := item.count - count }) bags

/-- What is listed leaves the bags of the player. -/
def takeItems (s : State) (player : UInt32) (listed : List (Item × UInt32)) : State :=
  { s with
    players := s.players.modify player
      (fun p => { p with items := takeListed p.items listed }) fun _ => rfl }

/-- The loop body that makes the listing, for the first of the items. -/
def listItems (s : State) (env : Env) (p : Character) (npc : Npc) (houseEntry : HouseEntry)
    (listed : List (Item × UInt32)) (item : Item) (count finalCount : UInt32)
    (bid buyout : UInt64) (etime : UInt32) : State × Option AuctionError :=
  let deposit := getAuctionDeposit env houseEntry etime item finalCount
  if !hasEnoughMoney p.money deposit.toUInt64 then (s, some .notEnoughtMoney)
  else
    let whole := listed.length = 1 && item.count = count
    let guidLow := if whole then item.guidLow else env.freshItem
    let a : AuctionEntry := {
      id := s.auctionId, itemGuidLow := guidLow, itemEntry := item.entry
      itemCount := if whole then item.count else finalCount
      owner := p.guid, startbid := bid.toUInt32, bid := 0, buyout := buyout.toUInt32, bidder := 0
      deposit, cutPercent := houseEntry.cutPercent }
    let s := (s.modifyMoney p.guid (-int32 deposit)).takeItems p.guid listed
    ({ s with
        auctionId := s.auctionId + 1
        aItems := s.aItems ++ [guidLow]
        auctions := s.auctions.put { house := npc.house, entry := a } }, some .ok)

def handleAuctionSellItem (s : State) (env : Env) (p : Character) (auctioneer : UInt64)
    (items : List (UInt64 × UInt32)) (bid buyout : UInt64) (etime : UInt32) :
    State × Option AuctionError :=
  if items.length > maxAuctionItems then (s, some .databaseError)
  else if items.any fun (guid, count) => guid = 0 || count = 0 || count > 1000 then (s, none)
  else if bid = 0 || etime = 0 then (s, none)
  else match env.npc auctioneer with
    | none => (s, none)
    | some npc => match npc.houseEntry with
      | none => (s, none)
      | some houseEntry =>
        let etime := etime * 60
        if etime ≠ minAuctionTime && etime ≠ 2 * minAuctionTime && etime ≠ 4 * minAuctionTime
        then (s, none)
        else match s.collectItems p 0 items with
          | .error e => (s, some e)
          | .ok listed =>
            let finalCount := (listed.map (·.2)).sum
            match listed with
            | [] => (s, some .databaseError)
            | (item, count) :: _ =>
              if finalCount = 0 || !(items.map (·.1)).Nodup ||
                  listed.any fun (item, _) => item.maxStackCount < finalCount
              then (s, some .databaseError)
              else s.listItems env p npc houseEntry listed item count finalCount bid buyout
                etime

/-! ### Bidding, cancelling, expiring -/

/-- What a bid below the buyout charges, and what the last bidder gets back. -/
def chargeBid (s : State) (env : Env) (player : UInt32) (a : AuctionEntry) (price : UInt64) :
    State :=
  if a.bidder > 0 then
    if a.bidder = player then s.modifyMoney player (-int64 (price - a.bid.toUInt64))
    else (s.send (sendAuctionOutbiddedMail env a)).modifyMoney player (-int64 price)
  else s.modifyMoney player (-int64 price)

/-- The branch of `HandleAuctionPlaceBid` below the buyout. -/
def placeBid (s : State) (env : Env) (player : UInt32) (l : Listing) (price : UInt64) : State :=
  let a := l.entry
  let s' := s.chargeBid env player a price
  let taken : ℤ := s.moneyOf player - s'.moneyOf player
  let paid := if a.bidder = player then l.paid + taken else taken
  { s' with
    auctions := s'.auctions.modify l.key (Listing.setBid player price.toUInt32 paid)
      (Listing.key_setBid _ _ _) }

/-- What a buyout charges, and what the last bidder gets back. -/
def chargeBuyout (s : State) (env : Env) (player : UInt32) (a : AuctionEntry) : State :=
  if player = a.bidder then s.modifyMoney player (-int64 (a.buyout - a.bid).toUInt64)
  else
    let s := s.modifyMoney player (-int64 a.buyout.toUInt64)
    if a.bidder ≠ 0 then s.send (sendAuctionOutbiddedMail env a) else s

/-- The branch of `HandleAuctionPlaceBid` that buys the auction out. -/
def buyout (s : State) (env : Env) (player : UInt32) (l : Listing) : State :=
  let s := s.chargeBuyout env player l.entry
  let a := l.entry.boughtOut player
  (s.send (sendAuctionSalePendingMail env a ++ sendAuctionSuccessfulMail env a ++
    sendAuctionWonMail env s.aItems a)).endAuction l

def handleAuctionPlaceBid (s : State) (env : Env) (p : Character) (auctioneer : UInt64)
    (auctionId : UInt32) (price : UInt64) : State × Option AuctionError :=
  if auctionId = 0 || price = 0 then (s, none)
  else match env.npc auctioneer with
    | none => (s, none)
    | some npc => match s.auctions.get? (npc.house, auctionId) with
      | none => (s, some .bidOwn)
      | some l =>
        let a := l.entry
        if a.owner = p.guid then (s, some .bidOwn)
        else if price ≤ a.bid.toUInt64 || price < a.startbid.toUInt64 then (s, none)
        else if a.isBid price && price < (a.bid + a.getAuctionOutBid env).toUInt64 then
          (s, some .higherBid)
        else if !hasEnoughMoney p.money price then (s, some .notEnoughtMoney)
        else if a.isBid price then (s.placeBid env p.guid l price, some .ok)
        else (s.buyout env p.guid l, some .ok)

def handleAuctionRemoveItem (s : State) (env : Env) (p : Character) (auctioneer : UInt64)
    (auctionId : UInt32) : State × Option AuctionError :=
  match env.npc auctioneer with
  | none => (s, none)
  | some npc => match s.auctions.get? (npc.house, auctionId) with
    | none => (s, some .databaseError)
    | some l =>
      let a := l.entry
      if a.owner ≠ p.guid then (s, some .databaseError)
      else if a.itemGuidLow ∉ s.aItems then (s, some .databaseError)
      else if a.bidder > 0 && !hasEnoughMoney p.money (a.getAuctionCut env).toUInt64 then
        (s, none)
      else
        let s :=
          if a.bidder > 0 then
            (s.send (sendAuctionCancelledToBidderMail env a)).modifyMoney p.guid
              (-int64 (a.getAuctionCut env).toUInt64)
          else s
        let s := s.send
          [{ receiver := p.guid, answer := .canceled, items := [a.itemGuidLow] }]
        (s.endAuction l, some .ok)

/-- The loop body of `AuctionHouseObject::Update`, for one id of the query. -/
def expire (s : State) (env : Env) (house : House) (id : UInt32) : State :=
  match s.auctions.get? (house, id) with
  | none => s
  | some l =>
    let a := l.entry
    let s := s.send
      (if a.bidder = 0 then sendAuctionExpiredMail env s.aItems a
      else sendAuctionSuccessfulMail env a ++ sendAuctionWonMail env s.aItems a)
    s.endAuction l

def update (s : State) (env : Env) (house : House) (ids : List UInt32) : State :=
  if s.auctions.rows.all fun l => l.house ≠ house then s
  else ids.foldl (fun s id => s.expire env house id) s

end State

/-! ### Steps -/

/-- What can happen to the auction house, the requests as a client sends them. -/
inductive Step where
  | sell (player : UInt32) (auctioneer : UInt64) (items : List (UInt64 × UInt32))
      (bid buyout : UInt64) (etime : UInt32)
  | bid (player : UInt32) (auctioneer : UInt64) (auctionId : UInt32) (price : UInt64)
  | cancel (player : UInt32) (auctioneer : UInt64) (auctionId : UInt32)
  | update (house : House) (ids : List UInt32)

/-- One step; a request of nobody does nothing. -/
def State.step (s : State) : Env × Step → State
  | (env, .sell player auctioneer items bid buyout etime) =>
    match s.players.get? player with
    | none => s
    | some p => (s.handleAuctionSellItem env p auctioneer items bid buyout etime).1
  | (env, .bid player auctioneer auctionId price) =>
    match s.players.get? player with
    | none => s
    | some p => (s.handleAuctionPlaceBid env p auctioneer auctionId price).1
  | (env, .cancel player auctioneer auctionId) =>
    match s.players.get? player with
    | none => s
    | some p => (s.handleAuctionRemoveItem env p auctioneer auctionId).1
  | (env, .update house ids) => s.update env house ids

/-! ### What each handler can do -/

/-- The checks of `HandleAuctionPlaceBid` let the price through. -/
structure Accepts (env : Env) (p : Character) (a : AuctionEntry) (price : UInt64) : Prop where
  owner : a.owner ≠ p.guid
  higher : a.bid.toUInt64 < price
  start : a.startbid.toUInt64 ≤ price
  outBid : a.isBid price → (a.bid + a.getAuctionOutBid env).toUInt64 ≤ price
  money : price.toNat ≤ p.money

variable {s : State} {env : Env} {p : Character}
variable {auctioneer : UInt64} {r : State × Option AuctionError}

/-- **What a listing can do**: nothing, or list the items collected, the first of
them naming the deposit. -/
theorem handleAuctionSellItem_cases {items : List (UInt64 × UInt32)}
    {bid buyout : UInt64} {etime : UInt32}
    (h : s.handleAuctionSellItem env p auctioneer items bid buyout etime = r) :
    r.1 = s ∨ ∃ npc entry item count rest, env.npc auctioneer = some npc ∧
      npc.houseEntry = some entry ∧ s.collectItems p 0 items = .ok ((item, count) :: rest) ∧
      r = s.listItems env p npc entry ((item, count) :: rest) item count
        (((item, count) :: rest).map (·.2)).sum bid buyout (etime * 60) := by
  unfold State.handleAuctionSellItem at h
  split at h
  · exact .inl (h ▸ rfl)
  split at h
  · exact .inl (h ▸ rfl)
  split at h
  · exact .inl (h ▸ rfl)
  split at h
  · exact .inl (h ▸ rfl)
  rename_i npc hnpc
  split at h
  · exact .inl (h ▸ rfl)
  rename_i entry hentry
  dsimp only at h
  split at h
  · exact .inl (h ▸ rfl)
  split at h
  · exact .inl (h ▸ rfl)
  rename_i listed hlisted
  split at h
  · exact .inl (h ▸ rfl)
  rename_i item count rest
  split at h
  · exact .inl (h ▸ rfl)
  · exact .inr ⟨npc, entry, item, count, rest, hnpc, hentry, hlisted, h.symm⟩

variable {auctionId : UInt32}

/-- **What a bid can do**: nothing, a bid below the buyout, or a buyout. -/
theorem handleAuctionPlaceBid_cases {price : UInt64}
    (h : s.handleAuctionPlaceBid env p auctioneer auctionId price = r) :
    r.1 = s ∨ ∃ npc l, env.npc auctioneer = some npc ∧
      s.auctions.get? (npc.house, auctionId) = some l ∧ Accepts env p l.entry price ∧
      r.1 = if l.entry.isBid price then s.placeBid env p.guid l price
        else s.buyout env p.guid l := by
  unfold State.handleAuctionPlaceBid at h
  split at h
  · exact .inl (h ▸ rfl)
  split at h
  · exact .inl (h ▸ rfl)
  rename_i npc hnpc
  split at h
  · exact .inl (h ▸ rfl)
  rename_i l hl
  dsimp only at h
  split at h
  · exact .inl (h ▸ rfl)
  rename_i hown
  split at h
  · exact .inl (h ▸ rfl)
  rename_i hlow
  split at h
  · exact .inl (h ▸ rfl)
  rename_i hout
  split at h
  · exact .inl (h ▸ rfl)
  rename_i hm
  simp only [Bool.or_eq_true, decide_eq_true_eq, not_or, UInt64.not_le, UInt64.not_lt] at hlow
  simp only [Bool.and_eq_true, decide_eq_true_eq, not_and, UInt64.not_lt] at hout
  have hacc : Accepts env p l.entry price :=
    ⟨hown, hlow.1, hlow.2, hout, by simpa [hasEnoughMoney] using hm⟩
  refine .inr ⟨npc, l, hnpc, hl, hacc, ?_⟩
  split at h
  · rename_i hbid
    rw [← h, if_pos hbid]
  rename_i hbid
  rw [← h, if_neg hbid]

/-- **What a cancellation can do**: nothing, or end the auction of the player. -/
theorem handleAuctionRemoveItem_cases
    (h : s.handleAuctionRemoveItem env p auctioneer auctionId = r) :
    r.1 = s ∨ ∃ npc l, env.npc auctioneer = some npc ∧
      s.auctions.get? (npc.house, auctionId) = some l ∧ l.entry.owner = p.guid ∧
      l.entry.itemGuidLow ∈ s.aItems ∧
      (l.entry.bidder ≠ 0 → (l.entry.getAuctionCut env).toNat ≤ p.money) ∧
      r.1 = (((if l.entry.bidder > 0 then
          (s.send (sendAuctionCancelledToBidderMail env l.entry)).modifyMoney p.guid
            (-int64 (l.entry.getAuctionCut env).toUInt64)
        else s).send [{ receiver := p.guid, answer := .canceled
                        items := [l.entry.itemGuidLow] }]).endAuction l) := by
  unfold State.handleAuctionRemoveItem at h
  split at h
  · exact .inl (h ▸ rfl)
  rename_i npc hnpc
  split at h
  · exact .inl (h ▸ rfl)
  rename_i l hl
  dsimp only at h
  split at h
  · exact .inl (h ▸ rfl)
  rename_i hown
  split at h
  · exact .inl (h ▸ rfl)
  rename_i hitem
  split at h
  · exact .inl (h ▸ rfl)
  rename_i hmoney
  refine .inr ⟨npc, l, hnpc, hl, not_not.mp hown, not_not.mp hitem, fun h0 => ?_, h ▸ rfl⟩
  simpa [UInt32.pos_iff_ne_zero.mpr h0, hasEnoughMoney] using hmoney

theorem get?_expire (s : State) (env : Env) (house : House) (id : UInt32) (k : House × UInt32) :
    (s.expire env house id).auctions.get? k =
      if k = (house, id) then none else s.auctions.get? k := by
  unfold State.expire
  cases hl : s.auctions.get? (house, id) with
  | none =>
    split_ifs with hk
    · rw [hk, hl]
    · rfl
  | some l =>
    have hkey := (Keyed.Table.get?_eq_some.mp hl).2
    simp only [State.endAuction, State.removeAuction, State.removeAItem, State.send, hkey,
      Keyed.Table.get?_erase]

/-! ### A market -/

/-- Everybody is in the world, at one auctioneer of the neutral house, which takes
15% and a deposit of 75%. -/
def market : Env where
  online _ := true
  accountId guid := guid
  npc _ := some { house := .neutral, houseEntry := some { depositPercent := 75, cutPercent := 15 } }
  gmLogTrade := false
  rawDeposit pct time sellPrice count := pct * 3 * sellPrice * count / 3 * (time / 43200) * 3 / 100
  auctionCut bid cutPercent := bid / 100 * cutPercent
  calculatePct5 bid := bid / 100 * 5
  freshItem := 900

def sword : Item := { guidLow := 7, entry := 25, count := 1, sellPrice := 100 }

theorem one_ne : (1 : UInt32) ≠ 0 := by decide

theorem two_ne : (2 : UInt32) ≠ 0 := by decide

/-- An empty auction house, a seller and two rich bidders. -/
def openingDay : State where
  players := ⟨[{ guid := 1, money := 1000, items := [sword], guid_ne := one_ne },
    { guid := 2, money := 5000000000, guid_ne := two_ne }, { guid := 3, money := 5000000000 }],
    by decide⟩
  auctions := .empty _
  aItems := []
  mails := []
  auctionId := 1

/-- The owner lists the item without a buyout. -/
def listing : Env × Step := (market, .sell 1 1 [(itemGuid 7, 1)] 1000 0 720)

end ZerosCore.Auction
