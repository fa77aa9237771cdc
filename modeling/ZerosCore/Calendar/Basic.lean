/-
# The calendar

`CalendarMgr` (`src/server/game/Calendar/CalendarMgr.{h,cpp}`) and the handlers
that change it (`src/server/game/Handlers/CalendarHandler.cpp`).

* `_events` is a set of pointers; a state holds the list of the events in the
  order of the pointers, which nothing depends on while ids are distinct.
* `_invites` is a map from event ids to vectors; a state holds the list of its
  entries `(key, invite)` in the order the two nested loops meet them, so that
  `push_back` is an insertion behind the entries with the same or a smaller key.
* Ids come from a pool each (`Lib.IdPool`): `GetFreeEventId` and
  `FreeEventId` are `take` and `give`.  An object that is deleted gives its id
  back; objects that are neither stored nor deleted keep theirs for good.
* A handler that fails answers with a `CalendarError`.  The other packets, the
  mails and the writes to the database are not modelled.
-/

import ZerosCore.Lib.IdPool
import ZerosCore.Lib.Multimap

namespace ZerosCore.Calendar

open Lib

/-! ### Events and invites -/

def calendarFlagInvitesLocked : ℕ := 0x010
def calendarFlagWithoutInvites : ℕ := 0x040
def calendarFlagGuildEvent : ℕ := 0x400

def calendarRankPlayer : ℕ := 0
def calendarRankModerator : ℕ := 1

def calendarStatusInvited : ℕ := 0
def calendarStatusSignedUp : ℕ := 6
def calendarStatusNotSignedUp : ℕ := 7
def calendarStatusTentative : ℕ := 8
def calendarStatusRemoved : ℕ := 9

/-- 01/01/2000 00:00:00, the response time of somebody who has not answered. -/
def defaultResponseTime : ℕ := 946684800

/-- The errors the handlers below answer with. -/
inductive CalendarError where
  | eventInvalid
  | guildPlayerNotInGuild
  | playerNotFound
  | notAllied
  | ignoringYou
  | eventLocked
  | deleteCreatorFailed
  | noInvite
  | noGuildInvites

structure CalendarInvite where
  inviteId : ℕ
  eventId : ℕ
  invitee : ℕ
  senderGUID : ℕ
  statusTime : ℕ
  status : ℕ
  rank : ℕ
  text : String

structure CalendarEvent where
  eventId : ℕ
  creatorGUID : ℕ
  guildId : ℕ
  type : ℕ
  dungeonId : ℤ
  eventTime : ℕ
  flags : ℕ
  timezoneTime : ℕ
  title : String
  description : String
  deriving DecidableEq

def CalendarEvent.isGuildEvent (e : CalendarEvent) : Bool := e.flags &&& calendarFlagGuildEvent ≠ 0

def CalendarEvent.isGuildAnnouncement (e : CalendarEvent) : Bool :=
  e.flags &&& calendarFlagWithoutInvites ≠ 0

/-- The state of `CalendarMgr`. -/
structure CalendarMgr where
  events : List CalendarEvent
  invites : List (ℕ × CalendarInvite)
  eventIds : IdPool
  inviteIds : IdPool

/-- A write through the pointer to the first element that meets `p`. -/
def updateFirst {α : Type} (p : α → Bool) (f : α → α) : List α → List α
  | [] => []
  | a :: l => if p a then f a :: l else a :: updateFirst p f l

namespace CalendarMgr

variable (s : CalendarMgr)

/-! ### The store -/

/-- `_invites[key].push_back(invite)`. -/
def pushInvite (key : ℕ) (invite : CalendarInvite) : CalendarMgr :=
  { s with invites := Multimap.insert Prod.fst (key, invite) s.invites }

/-- `LoadFromDB`: the rows of `calendar_events`, with the guild of the creator in
guild events and announcements, and the rows of `calendar_invites`. -/
def loadFromDB (getGuildIdFromDB : ℕ → ℕ) (eventRows : List CalendarEvent)
    (inviteRows : List CalendarInvite) : CalendarMgr :=
  let events := eventRows.map fun e =>
    { e with guildId := if e.isGuildEvent ∨ e.isGuildAnnouncement then
        getGuildIdFromDB e.creatorGUID else 0 }
  let invites := inviteRows.foldl
    (fun l invite => Multimap.insert Prod.fst (invite.eventId, invite) l) []
  { events := events, invites := invites
    eventIds := IdPool.ofUsed (eventRows.map CalendarEvent.eventId)
    inviteIds := IdPool.ofUsed (inviteRows.map CalendarInvite.inviteId) }

def getEvent (eventId : ℕ) : Option CalendarEvent := s.events.find? fun e => e.eventId = eventId

def getInvite (inviteId : ℕ) : Option CalendarInvite :=
  (s.invites.find? fun x => x.2.inviteId = inviteId).map Prod.snd

def getEventInvites (eventId : ℕ) : List CalendarInvite :=
  (s.invites.filter fun x => x.1 = eventId).map Prod.snd

def addEvent (e : CalendarEvent) : CalendarMgr := { s with events := e :: s.events }

/-- `AddInvite`: an announcement has no invites, the object is dropped. -/
def addInvite (e : CalendarEvent) (invite : CalendarInvite) : CalendarMgr :=
  if e.isGuildAnnouncement then s else s.pushInvite invite.eventId invite

def getFreeEventId : ℕ × CalendarMgr := (s.eventIds.take.1, { s with eventIds := s.eventIds.take.2 })

def getFreeInviteId : ℕ × CalendarMgr :=
  (s.inviteIds.take.1, { s with inviteIds := s.inviteIds.take.2 })

/-- `RemoveEvent`: the invites are deleted one by one from the front, then the event. -/
def removeEvent (eventId : ℕ) : Except CalendarError CalendarMgr :=
  match s.getEvent eventId with
  | none => .error .eventInvalid
  | some e => .ok
      { events := s.events.eraseP fun e => e.eventId = eventId
        invites := s.invites.filter fun x => x.1 ≠ eventId
        inviteIds := ((s.getEventInvites eventId).map CalendarInvite.inviteId).foldl IdPool.give
          s.inviteIds
        eventIds := s.eventIds.give e.eventId }

/-- `RemoveInvite`: nothing is said if there is no such event or invite. -/
def removeInvite (inviteId eventId : ℕ) : CalendarMgr :=
  match s.getEvent eventId with
  | none => s
  | some _ =>
    if s.invites.any fun x => x.1 = eventId ∧ x.2.inviteId = inviteId then
      { s with
        invites := s.invites.eraseP fun x => x.1 = eventId ∧ x.2.inviteId = inviteId
        inviteIds := s.inviteIds.give inviteId }
    else s

/-- A change through the pointer `GetEvent` returns. -/
def updateEvent (eventId : ℕ) (f : CalendarEvent → CalendarEvent) : CalendarMgr :=
  { s with events := updateFirst (fun e => e.eventId = eventId) f s.events }

/-- A change through the pointer `GetInvite` returns. -/
def updateInvite (inviteId : ℕ) (f : CalendarInvite → CalendarInvite) : CalendarMgr :=
  { s with invites := updateFirst (fun x => x.2.inviteId = inviteId) (Prod.map id f) s.invites }

/-- `GetPlayerEvents`: the events of the player's invites, a null pointer for an
invite without event, and the events of its guild if it is online. -/
def getPlayerEvents (guid : ℕ) (guildId : Option ℕ) : List (Option CalendarEvent) :=
  (s.invites.filter fun x => x.2.invitee = guid).map (fun x => s.getEvent x.1) ++
    match guildId with
    | none => []
    | some guildId => (s.events.filter fun e => e.guildId = guildId).map some

end CalendarMgr

/-! ### Handlers -/

/-- The player whose session sends a request. -/
structure Sender where
  guid : ℕ
  guildId : ℕ
  team : ℕ

structure EventFields where
  type : ℕ
  dungeonId : ℤ
  eventTime : ℕ
  timezoneTime : ℕ
  flags : ℕ
  title : String
  description : String

/-- One invite of `CMSG_CALENDAR_ADD_EVENT`. -/
structure PackedInvite where
  invitee : ℕ
  status : ℕ
  rank : ℕ

/-- `CMSG_CALENDAR_ADD_EVENT` as far as the packet goes: `inviteCount` is `none` if
it ends before the number of invites, and `invites` are those it holds in full. -/
structure AddEventPacket where
  fields : EventFields
  inviteCount : Option ℕ
  invites : List PackedInvite

/-- Whom `HandleCalendarEventInvite` finds under a name, online or in the database. -/
structure Invitee where
  guid : ℕ
  team : ℕ
  guildId : ℕ
  ignoresSender : Bool

/-- `CMSG_CALENDAR_EVENT_INVITE`, the name already looked up. -/
structure EventInvitePacket where
  eventId : ℕ
  inviteId : ℕ
  invitee : Option Invitee
  isPreInvite : Bool
  isGuildEvent : Bool

namespace CalendarMgr

variable (s : CalendarMgr) (sender : Sender)

def newEvent (eventId : ℕ) (fields : EventFields) : CalendarEvent where
  eventId := eventId
  creatorGUID := sender.guid
  -- SetGuildId for guild events and announcements, the creator being online
  guildId := if fields.flags &&& calendarFlagGuildEvent ≠ 0 ∨
      fields.flags &&& calendarFlagWithoutInvites ≠ 0 then sender.guildId else 0
  type := fields.type
  dungeonId := fields.dungeonId
  eventTime := fields.eventTime
  flags := fields.flags
  timezoneTime := fields.timezoneTime
  title := fields.title
  description := fields.description

/-- The loop of `HandleCalendarAddEvent` over `n` invites.  The second component
is `false` if the packet ended and the read threw. -/
def readInvites (e : CalendarEvent) : CalendarMgr → ℕ → List PackedInvite → CalendarMgr × Bool
  | s, 0, _ => (s, true)
  | s, _ + 1, [] => (s, false)
  | s, n + 1, x :: xs =>
    let (inviteId, s) := s.getFreeInviteId
    readInvites e (s.addInvite e ⟨inviteId, e.eventId, x.invitee, sender.guid,
      defaultResponseTime, x.status, x.rank, ""⟩) n xs

/-- `HandleCalendarAddEvent`: the event is inserted last, when every invite has
been read and stored. -/
def handleAddEvent (packet : AddEventPacket) : CalendarMgr :=
  let (eventId, s) := s.getFreeEventId
  let e := newEvent sender eventId packet.fields
  if e.isGuildAnnouncement then
    (s.addInvite e ⟨0, e.eventId, 0, sender.guid, defaultResponseTime, calendarStatusNotSignedUp,
      calendarRankPlayer, ""⟩).addEvent e
  else
    match packet.inviteCount with
    | none => s
    | some n =>
      let (s, complete) := readInvites sender e s n packet.invites
      if complete then s.addEvent e else s

/-- `HandleCalendarUpdateEvent`. -/
def handleUpdateEvent (eventId : ℕ) (fields : EventFields) : Except CalendarError CalendarMgr :=
  match s.getEvent eventId with
  | none => .error .eventInvalid
  | some _ => .ok <| s.updateEvent eventId fun e =>
    { e with type := fields.type, flags := fields.flags, eventTime := fields.eventTime,
             timezoneTime := fields.timezoneTime, dungeonId := fields.dungeonId,
             title := fields.title, description := fields.description }

/-- The loop of `HandleCalendarCopyEvent` over the invites of the old event. -/
def copyInvites (e : CalendarEvent) (s : CalendarMgr) (invites : List CalendarInvite) :
    CalendarMgr :=
  invites.foldl (fun s invite =>
    let (inviteId, s) := s.getFreeInviteId
    s.addInvite e { invite with inviteId := inviteId, eventId := e.eventId }) s

/-- `HandleCalendarCopyEvent`: here the event is inserted first. -/
def handleCopyEvent (eventId time : ℕ) : Except CalendarError CalendarMgr :=
  match s.getEvent eventId with
  | none => .error .eventInvalid
  | some oldEvent =>
    let (newId, s) := s.getFreeEventId
    let e := { oldEvent with eventId := newId, eventTime := time }
    let s := s.addEvent e
    .ok (copyInvites e s (s.getEventInvites eventId))

/-- The checks of `HandleCalendarEventInvite`: the event and the player to invite,
or nothing for a pre-invite, which is only answered. -/
def inviteTarget (allowTwoSide : Bool) (packet : EventInvitePacket) :
    Except CalendarError (Option (CalendarEvent × Invitee)) :=
  match packet.invitee with
  | none => .error .playerNotFound
  | some who =>
    if who.guid = 0 then .error .playerNotFound
    else if sender.team ≠ who.team ∧ ¬ allowTwoSide then .error .notAllied
    else if who.ignoresSender then .error .ignoringYou
    else if ¬ packet.isPreInvite then
      match s.getEvent packet.eventId with
      | none => .error .eventInvalid
      | some e =>
        if e.isGuildEvent ∧ e.guildId = who.guildId then .error .noGuildInvites
        else .ok (some (e, who))
    else if packet.isGuildEvent ∧ who.guildId = sender.guildId then .error .noGuildInvites
    else .ok none

/-- `HandleCalendarEventInvite`. -/
def handleEventInvite (allowTwoSide : Bool) (packet : EventInvitePacket) :
    Except CalendarError CalendarMgr :=
  match s.inviteTarget sender allowTwoSide packet with
  | .error err => .error err
  | .ok none => .ok s
  | .ok (some (e, who)) =>
    let (inviteId, s) := s.getFreeInviteId
    .ok (s.addInvite e ⟨inviteId, packet.eventId, who.guid, sender.guid, defaultResponseTime,
      calendarStatusInvited, calendarRankPlayer, ""⟩)

/-- The checks of `HandleCalendarEventSignup`. -/
def signupTarget (eventId : ℕ) : Except CalendarError CalendarEvent :=
  match s.getEvent eventId with
  | none => .error .eventInvalid
  | some e =>
    if e.isGuildEvent ∧ e.guildId ≠ sender.guildId then .error .guildPlayerNotInGuild else .ok e

/-- `HandleCalendarEventSignup`. -/
def handleEventSignup (eventId : ℕ) (tentative : Bool) (now : ℕ) :
    Except CalendarError CalendarMgr :=
  match s.signupTarget sender eventId with
  | .error err => .error err
  | .ok e =>
    let (inviteId, s) := s.getFreeInviteId
    .ok (s.addInvite e ⟨inviteId, eventId, sender.guid, sender.guid, now,
      if tentative then calendarStatusTentative else calendarStatusSignedUp,
      calendarRankPlayer, ""⟩)

/-- `HandleCalendarEventRsvp`. -/
def handleEventRsvp (eventId inviteId status now : ℕ) : Except CalendarError CalendarMgr :=
  match s.getEvent eventId with
  | none => .error .eventInvalid
  | some e =>
    -- one may still remove oneself from a locked event
    if status ≠ calendarStatusRemoved ∧ e.flags &&& calendarFlagInvitesLocked ≠ 0 then
      .error .eventLocked
    else match s.getInvite inviteId with
      | none => .error .noInvite
      | some _ => .ok <| s.updateInvite inviteId fun invite =>
        { invite with status := status, statusTime := now }

/-- `HandleCalendarEventRemoveInvite`. -/
def handleEventRemoveInvite (invitee inviteId eventId : ℕ) : Except CalendarError CalendarMgr :=
  match s.getEvent eventId with
  | none => .error .noInvite
  | some e =>
    if e.creatorGUID = invitee then .error .deleteCreatorFailed
    else .ok (s.removeInvite inviteId eventId)

/-- The body `HandleCalendarEventStatus` and `HandleCalendarEventModeratorStatus`
share: the event and the invite must exist, then one field of the invite is set. -/
def setOnInvite (eventId inviteId : ℕ) (f : CalendarInvite → CalendarInvite) :
    Except CalendarError CalendarMgr :=
  match s.getEvent eventId with
  | none => .error .eventInvalid
  | some _ =>
    match s.getInvite inviteId with
    | none => .error .noInvite
    | some _ => .ok (s.updateInvite inviteId f)

/-- `HandleCalendarEventStatus`. -/
def handleEventStatus (eventId inviteId status : ℕ) : Except CalendarError CalendarMgr :=
  s.setOnInvite eventId inviteId fun invite => { invite with status := status }

/-- `HandleCalendarEventModeratorStatus`. -/
def handleEventModeratorStatus (eventId inviteId rank : ℕ) : Except CalendarError CalendarMgr :=
  s.setOnInvite eventId inviteId fun invite => { invite with rank := rank }

end CalendarMgr

/-! ### Requests -/

/-- The requests that may change the calendar.  `addEvent none` is a packet that
ends before the event's own fields do. -/
inductive Request where
  | addEvent (packet : Option AddEventPacket)
  | updateEvent (eventId : ℕ) (fields : EventFields)
  | removeEvent (eventId : ℕ)
  | copyEvent (eventId time : ℕ)
  | eventInvite (allowTwoSide : Bool) (packet : EventInvitePacket)
  | eventSignup (eventId : ℕ) (tentative : Bool) (now : ℕ)
  | eventRsvp (eventId inviteId status now : ℕ)
  | eventRemoveInvite (invitee inviteId eventId : ℕ)
  | eventStatus (eventId inviteId status : ℕ)
  | eventModeratorStatus (eventId inviteId rank : ℕ)

def CalendarMgr.handle (s : CalendarMgr) (sender : Sender) :
    Request → Except CalendarError CalendarMgr
  | .addEvent none => .ok s
  | .addEvent (some packet) => .ok (s.handleAddEvent sender packet)
  | .updateEvent eventId fields => s.handleUpdateEvent eventId fields
  | .removeEvent eventId => s.removeEvent eventId
  | .copyEvent eventId time => s.handleCopyEvent eventId time
  | .eventInvite allowTwoSide packet => s.handleEventInvite sender allowTwoSide packet
  | .eventSignup eventId tentative now => s.handleEventSignup sender eventId tentative now
  | .eventRsvp eventId inviteId status now => s.handleEventRsvp eventId inviteId status now
  | .eventRemoveInvite invitee inviteId eventId =>
    s.handleEventRemoveInvite invitee inviteId eventId
  | .eventStatus eventId inviteId status => s.handleEventStatus eventId inviteId status
  | .eventModeratorStatus eventId inviteId rank => s.handleEventModeratorStatus eventId inviteId rank

/-- One request of one player: the calendar is as it was if the handler fails. -/
def serve (s : CalendarMgr) (r : Sender × Request) : CalendarMgr :=
  match s.handle r.1 r.2 with
  | .ok s' => s'
  | .error _ => s

end ZerosCore.Calendar
