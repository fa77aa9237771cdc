/-
# What a calendar request may change, and what a player sees

The handlers of `src/server/game/Handlers/CalendarHandler.cpp` check that the ids a
client sends exist, not whose they are: an event is changed or removed by anybody
who names it, and the status or rank of an invite by anybody who names it beside any
event (`outsider_removes_event`).  What they do keep is a frame: every event and
every invite is left alone unless the request names it (`OnlyNamed`), and the sender of a
request that changes or removes something makes no difference (`SenderFree`).

`GetPlayerEvents` collects the events a player is invited to and those of the guild
of an online player, and nothing else as long as each invite of the player is to an
event that exists (`Ids.seesExactly_iff`).  An invite that a packet left behind when
it ended in the middle puts a null pointer among them.

Both are stated for every state a run can reach.  Such a state has no two events
with one id, whether its invites are in order or not (`Ids.serve`), which is what
makes the event found under an id the event meant.
-/

import ZerosCore.Calendar.Integrity

namespace ZerosCore.Calendar

open Lib CalendarMgr List Option CalendarMgr

/-! ### What would be an authority -/

/-- The player created the event or has a rank above the players in an invite to it. -/
def MayChange (s : CalendarMgr) (sender : Sender) (e : CalendarEvent) : Prop :=
  sender.guid = e.creatorGUID ∨
    ∃ x ∈ s.invites, x.1 = e.eventId ∧ x.2.invitee = sender.guid ∧ calendarRankModerator ≤ x.2.rank

/-- **Authority**: only the creator or a moderator changes or removes an event, and the
status or rank of an invite is changed through its own event only, by its invitee or
such a moderator. -/
structure Authorised (s : CalendarMgr) (r : Sender × Request) : Prop where
  event : ∀ e ∈ s.events, e ∉ (serve s r).events → MayChange s r.1 e
  invite : ∀ x ∈ s.invites, ∀ y ∈ (serve s r).invites, y.2.inviteId = x.2.inviteId →
    (y.2.status ≠ x.2.status ∨ y.2.rank ≠ x.2.rank) →
      (∃ now status, r.2 = .eventRsvp x.1 x.2.inviteId status now ∨
        r.2 = .eventStatus x.1 x.2.inviteId status ∨
        r.2 = .eventModeratorStatus x.1 x.2.inviteId status) ∧
      (x.2.invitee = r.1.guid ∨ ∃ e ∈ s.events, e.eventId = x.1 ∧ MayChange s r.1 e)

/-- **Visibility**: what a player is shown are the events it is invited to and those of its
guild, if it has one, and no null pointer.  `guildId` is `none` for a player who is not online. -/
def SeesExactly (s : CalendarMgr) (guid : ℕ) (guildId : Option ℕ) : Prop :=
  ∀ o, o ∈ s.getPlayerEvents guid guildId ↔ ∃ e ∈ s.events, o = some e ∧
    (Invited s e.eventId guid ∨ ∃ g ∈ guildId, g ≠ 0 ∧ e.guildId = g)

/-! ### What the handlers keep -/

def CalendarEvent.withFields (e : CalendarEvent) (fields : EventFields) : CalendarEvent :=
  { e with type := fields.type, flags := fields.flags, eventTime := fields.eventTime,
           timezoneTime := fields.timezoneTime, dungeonId := fields.dungeonId,
           title := fields.title, description := fields.description }

/-- The one field of an invite a request sets, if it names that invite beside an event
that exists, and for an answer one that is not locked. -/
def SetsInvite (s : CalendarMgr) (inviteId : ℕ) (i i' : CalendarInvite) : Request → Prop
  | .eventRsvp eventId id status now => id = inviteId ∧
      i' = { i with status := status, statusTime := now } ∧
      ∃ e, s.getEvent eventId = some e ∧
        (status = calendarStatusRemoved ∨ e.flags &&& calendarFlagInvitesLocked = 0)
  | .eventStatus eventId id status => id = inviteId ∧ i' = { i with status := status } ∧
      ∃ e, s.getEvent eventId = some e
  | .eventModeratorStatus eventId id rank => id = inviteId ∧ i' = { i with rank := rank } ∧
      ∃ e, s.getEvent eventId = some e
  | _ => False

/-- The request deletes the invites of an event, or one of them that it names together with
the event, stating an invitee who is not the event's creator. -/
def DeletesInvite (s : CalendarMgr) (x : ℕ × CalendarInvite) : Request → Prop
  | .removeEvent eventId => eventId = x.1
  | .eventRemoveInvite invitee inviteId eventId => eventId = x.1 ∧ inviteId = x.2.inviteId ∧
      ∃ e, s.getEvent eventId = some e ∧ e.creatorGUID ≠ invitee
  | _ => False

/-- **The frame**: an event changes or goes only if an update or a removal names it, and an
invite only if a request names it. -/
structure OnlyNamed (s s' : CalendarMgr) (r : Request) : Prop where
  event : ∀ e ∈ s.events, e ∈ s'.events ∨ r = .removeEvent e.eventId ∨
    ∃ fields, r = .updateEvent e.eventId fields ∧ e.withFields fields ∈ s'.events
  invite : ∀ x ∈ s.invites, x ∈ s'.invites ∨ DeletesInvite s x r ∨
    ∃ i', SetsInvite s x.2.inviteId x.2 i' r ∧ (x.1, i') ∈ s'.invites

/-- Requests that change or remove something do not depend on who sends them.  A new event,
an invite and a sign-up do: by guild and side, and by whom they record as sender. -/
def SenderFree (s : CalendarMgr) : Request → Prop
  | .addEvent _ | .eventInvite _ _ | .eventSignup _ _ _ => True
  | r => ∀ a b, s.handle a r = s.handle b r

/-! ### The frame, request by request -/

section Frame

variable {s s' : CalendarMgr} {sender : Sender} {e : CalendarEvent} {r : Request} {id k : ℕ}

theorem mem_updateFirst_of_mem {α : Type} {p : α → Bool} {f : α → α} {l : List α} {a : α}
    (h : a ∈ l) : a ∈ updateFirst p f l ∨ p a ∧ f a ∈ updateFirst p f l := by
  induction l with
  | nil => cases h
  | cons b l ih =>
    rw [updateFirst]
    rcases mem_cons.mp h with rfl | h
    · split_ifs with hp
      · exact Or.inr ⟨hp, mem_cons_self⟩
      · exact Or.inl mem_cons_self
    split_ifs with hp
    · exact Or.inl (mem_cons_of_mem _ h)
    · exact (ih h).imp (mem_cons_of_mem _) (And.imp_right (mem_cons_of_mem _))

theorem OnlyNamed.of_subset (he : ∀ e ∈ s.events, e ∈ s'.events)
    (hi : ∀ x ∈ s.invites, x ∈ s'.invites) : OnlyNamed s s' r :=
  ⟨fun e h => Or.inl (he e h), fun x h => Or.inl (hi x h)⟩

theorem OnlyNamed.updateInvite {f : CalendarInvite → CalendarInvite}
    (h : ∀ i, SetsInvite s id i (f i) r) : OnlyNamed s (s.updateInvite id f) r := by
  refine ⟨fun e he => Or.inl he, fun x hx => ?_⟩
  rcases mem_updateFirst_of_mem (p := fun x : ℕ × CalendarInvite => x.2.inviteId = id)
    (f := Prod.map (fun n => n) f) hx with hx | ⟨hp, hx⟩
  · exact Or.inl hx
  have hid : x.2.inviteId = id := of_decide_eq_true hp
  exact Or.inr (Or.inr ⟨f x.2, hid ▸ h x.2, hx⟩)

variable {x : ℕ × CalendarInvite}

theorem mem_invites_addInvite {invite : CalendarInvite}
    (h : x ∈ s.invites) : x ∈ (s.addInvite e invite).invites := by
  unfold addInvite
  split_ifs
  · exact h
  · exact Multimap.mem_insert.mpr (Or.inr h)

theorem mem_invites_copyInvites {invites : List CalendarInvite}
    (h : x ∈ s.invites) : x ∈ (copyInvites e s invites).invites := by
  induction invites generalizing s with
  | nil => exact h
  | cons invite invites ih =>
    exact ih (mem_invites_addInvite h)

theorem eventIds_addInvite (s : CalendarMgr) (e : CalendarEvent) (invite : CalendarInvite) :
    (s.addInvite e invite).eventIds = s.eventIds := by
  unfold addInvite
  split_ifs <;> rfl

theorem events_copyInvites (e : CalendarEvent) (s : CalendarMgr) (invites : List CalendarInvite) :
    (copyInvites e s invites).events = s.events ∧
      (copyInvites e s invites).eventIds = s.eventIds := by
  induction invites generalizing s with
  | nil => exact ⟨rfl, rfl⟩
  | cons invite invites ih =>
    rw [copyInvites_cons, (ih _).1, (ih _).2, events_addInvite, eventIds_addInvite]
    exact ⟨rfl, rfl⟩

theorem events_handleAddEvent (s : CalendarMgr) (sender : Sender) (packet : AddEventPacket) :
    (s.handleAddEvent sender packet).eventIds = s.eventIds.take.2 ∧
      ((s.handleAddEvent sender packet).events = s.events ∨ ∃ e, e.eventId = s.eventIds.take.1 ∧
        (s.handleAddEvent sender packet).events = e :: s.events) := by
  unfold handleAddEvent
  dsimp only
  split_ifs with hann
  · refine ⟨eventIds_addInvite _ _ _, Or.inr ⟨newEvent sender s.getFreeEventId.1 packet.fields, rfl, ?_⟩⟩
    exact congrArg _ (events_addInvite _ _ _)
  split
  · exact ⟨rfl, Or.inl rfl⟩
  rename_i n hn
  rw [readInvites_eq]
  obtain ⟨hevents, hids⟩ := events_copyInvites (newEvent sender s.getFreeEventId.1 packet.fields)
    s.getFreeEventId.2 ((packet.invites.take n).map
      (draft sender (newEvent sender s.getFreeEventId.1 packet.fields)))
  split_ifs
  · exact ⟨hids, Or.inr ⟨newEvent sender s.getFreeEventId.1 packet.fields, rfl, congrArg _ hevents⟩⟩
  · exact ⟨hids, Or.inl hevents⟩

theorem mem_invites_handleAddEvent {packet : AddEventPacket}
    (h : x ∈ s.invites) : x ∈ (s.handleAddEvent sender packet).invites := by
  unfold handleAddEvent
  dsimp only
  split_ifs with hann
  · exact mem_invites_addInvite (s := s.getFreeEventId.2) h
  split
  · exact h
  rw [readInvites_eq]
  split_ifs <;> exact mem_invites_copyInvites (s := s.getFreeEventId.2) h

/-- **The frame of one request.** -/
theorem onlyNamed_handle (hok : s.handle sender r = .ok s') : OnlyNamed s s' r := by
  cases r with
  | addEvent packet =>
    cases packet with
    | none =>
      obtain rfl := Except.ok.inj hok
      exact OnlyNamed.of_subset (fun _ h => h) fun _ h => h
    | some packet =>
      obtain rfl := Except.ok.inj hok
      refine OnlyNamed.of_subset (fun e he => ?_) fun x hx => mem_invites_handleAddEvent hx
      obtain ⟨-, heq | ⟨e', -, heq⟩⟩ := events_handleAddEvent s sender packet
      · exact heq ▸ he
      · exact heq ▸ mem_cons_of_mem e' he
  | updateEvent eventId fields =>
    simp only [handle, handleUpdateEvent] at hok
    split at hok
    · cases hok
    obtain rfl := Except.ok.inj hok
    refine ⟨fun e he => ?_, fun x hx => Or.inl hx⟩
    rcases mem_updateFirst_of_mem (p := fun e : CalendarEvent => e.eventId = eventId)
      (f := fun e => e.withFields fields) he with he | ⟨hp, he⟩
    · exact Or.inl he
    have hid : e.eventId = eventId := of_decide_eq_true hp
    exact Or.inr (Or.inr ⟨fields, by rw [hid], he⟩)
  | removeEvent eventId =>
    simp only [handle, removeEvent] at hok
    split at hok
    · cases hok
    obtain rfl := Except.ok.inj hok
    refine ⟨fun e he => ?_, fun x hx => ?_⟩
    · by_cases hid : e.eventId = eventId
      · exact Or.inr (Or.inl (by rw [hid]))
      · exact Or.inl ((mem_eraseP_of_neg (by simpa using hid)).mpr he)
    by_cases hkey : x.1 = eventId
    · exact Or.inr (Or.inl hkey.symm)
    · exact Or.inl (mem_filter.mpr ⟨hx, by simpa using hkey⟩)
  | copyEvent eventId time =>
    simp only [handle, handleCopyEvent] at hok
    split at hok
    · cases hok
    obtain rfl := Except.ok.inj hok
    refine OnlyNamed.of_subset (fun e he => ?_) fun x hx => ?_
    · rw [(events_copyInvites _ _ _).1]
      exact mem_cons_of_mem _ he
    · exact mem_invites_copyInvites (s := s.getFreeEventId.2.addEvent _) hx
  | eventInvite allowTwoSide packet =>
    simp only [handle, handleEventInvite] at hok
    split at hok
    · cases hok
    · obtain rfl := Except.ok.inj hok
      exact OnlyNamed.of_subset (fun _ h => h) fun _ h => h
    obtain rfl := Except.ok.inj hok
    exact OnlyNamed.of_subset (fun e he => by rw [events_addInvite]; exact he)
      fun x hx => mem_invites_addInvite (s := s.getFreeInviteId.2) hx
  | eventSignup eventId tentative now =>
    simp only [handle, handleEventSignup] at hok
    split at hok
    · cases hok
    obtain rfl := Except.ok.inj hok
    exact OnlyNamed.of_subset (fun e he => by rw [events_addInvite]; exact he)
      fun x hx => mem_invites_addInvite (s := s.getFreeInviteId.2) hx
  | eventRsvp eventId inviteId status now =>
    simp only [handle, handleEventRsvp] at hok
    split at hok
    · cases hok
    rename_i e he
    split_ifs at hok with hlock
    split at hok
    · cases hok
    obtain rfl := Except.ok.inj hok
    refine OnlyNamed.updateInvite fun i => ⟨rfl, rfl, e, he, ?_⟩
    by_contra hn
    rw [not_or] at hn
    exact hlock hn
  | eventRemoveInvite invitee inviteId eventId =>
    simp only [handle, handleEventRemoveInvite] at hok
    split at hok
    · cases hok
    rename_i e he
    split_ifs at hok with hcreator
    obtain rfl := Except.ok.inj hok
    unfold removeInvite
    split
    · exact OnlyNamed.of_subset (fun _ h => h) fun _ h => h
    split_ifs
    · refine ⟨fun e he => Or.inl he, fun x hx => ?_⟩
      by_cases hx' : x.1 = eventId ∧ x.2.inviteId = inviteId
      · exact Or.inr (Or.inl ⟨hx'.1.symm, hx'.2.symm, e, he, hcreator⟩)
      · exact Or.inl ((mem_eraseP_of_neg (by simpa using hx')).mpr hx)
    · exact OnlyNamed.of_subset (fun _ h => h) fun _ h => h
  | eventStatus eventId inviteId status =>
    simp only [handle, handleEventStatus, setOnInvite] at hok
    split at hok
    · cases hok
    rename_i e he
    split at hok
    · cases hok
    obtain rfl := Except.ok.inj hok
    exact OnlyNamed.updateInvite fun i => ⟨rfl, rfl, e, he⟩
  | eventModeratorStatus eventId inviteId rank =>
    simp only [handle, handleEventModeratorStatus, setOnInvite] at hok
    split at hok
    · cases hok
    rename_i e he
    split at hok
    · cases hok
    obtain rfl := Except.ok.inj hok
    exact OnlyNamed.updateInvite fun i => ⟨rfl, rfl, e, he⟩

theorem onlyNamed_serve (s : CalendarMgr) (sender : Sender) (r : Request) :
    OnlyNamed s (serve s (sender, r)) r := by
  unfold serve
  split
  · rename_i s' hok
    exact onlyNamed_handle hok
  · exact OnlyNamed.of_subset (fun _ h => h) fun _ h => h

theorem senderFree (s : CalendarMgr) (r : Request) : SenderFree s r := by
  cases r with
  | addEvent _ | eventInvite _ _ | eventSignup _ _ _ => trivial
  | updateEvent _ _ | removeEvent _ | copyEvent _ _ | eventRsvp _ _ _ _
  | eventRemoveInvite _ _ _ | eventStatus _ _ _ | eventModeratorStatus _ _ _ => exact fun _ _ => rfl

end Frame

/-! ### Event ids, in every run -/

/-- The events of a state have different ids, which their pool knows of. -/
def Ids (s : CalendarMgr) : Prop := s.eventIds.Owns (s.events.map CalendarEvent.eventId)

section EventIds

variable {s s' : CalendarMgr} {sender : Sender} {r : Request}

theorem Ids.of_eq (h : Ids s) (he : s'.events.map CalendarEvent.eventId =
    s.events.map CalendarEvent.eventId) (hp : s'.eventIds = s.eventIds) : Ids s' := by
  unfold Ids
  rw [he, hp]
  exact h

theorem Ids.handle (h : Ids s) (hok : s.handle sender r = .ok s') : Ids s' := by
  cases r with
  | addEvent packet =>
    cases packet with
    | none =>
      obtain rfl := Except.ok.inj hok
      exact h
    | some packet =>
      obtain rfl := Except.ok.inj hok
      obtain ⟨hids, heq | ⟨e, he, heq⟩⟩ := events_handleAddEvent s sender packet
      · unfold Ids
        rw [hids, heq]
        exact h.take.sublist (sublist_cons_self _ _)
      unfold Ids
      rw [hids, heq, map_cons, he]
      exact h.take
  | updateEvent eventId fields =>
    simp only [handle, handleUpdateEvent] at hok
    split at hok
    · cases hok
    obtain rfl := Except.ok.inj hok
    exact h.of_eq (map_updateFirst fun _ => rfl) rfl
  | removeEvent eventId =>
    simp only [handle, removeEvent] at hok
    split at hok
    · cases hok
    rename_i e he
    obtain rfl := Except.ok.inj hok
    obtain ⟨a, ha, hperm⟩ := perm_eraseP_of_getEvent he
    refine IdPool.Owns.give (h.perm ?_)
    exact ha ▸ hperm.map CalendarEvent.eventId
  | copyEvent eventId time =>
    simp only [handle, handleCopyEvent] at hok
    split at hok
    · cases hok
    obtain rfl := Except.ok.inj hok
    unfold Ids
    rw [(events_copyInvites _ _ _).1, (events_copyInvites _ _ _).2]
    exact h.take
  | eventInvite allowTwoSide packet =>
    simp only [handle, handleEventInvite] at hok
    split at hok
    · cases hok
    · obtain rfl := Except.ok.inj hok
      exact h
    obtain rfl := Except.ok.inj hok
    exact h.of_eq (congrArg _ (events_addInvite _ _ _)) (eventIds_addInvite _ _ _)
  | eventSignup eventId tentative now =>
    simp only [handle, handleEventSignup] at hok
    split at hok
    · cases hok
    obtain rfl := Except.ok.inj hok
    exact h.of_eq (congrArg _ (events_addInvite _ _ _)) (eventIds_addInvite _ _ _)
  | eventRsvp eventId inviteId status now =>
    simp only [handle, handleEventRsvp] at hok
    split at hok
    · cases hok
    split_ifs at hok
    split at hok
    · cases hok
    obtain rfl := Except.ok.inj hok
    exact h
  | eventRemoveInvite invitee inviteId eventId =>
    simp only [handle, handleEventRemoveInvite] at hok
    split at hok
    · cases hok
    split_ifs at hok
    obtain rfl := Except.ok.inj hok
    unfold removeInvite
    split
    · exact h
    split_ifs <;> exact h
  | eventStatus eventId inviteId status | eventModeratorStatus eventId inviteId rank =>
    simp only [handle, handleEventStatus, handleEventModeratorStatus, setOnInvite] at hok
    split at hok
    · cases hok
    split at hok
    · cases hok
    obtain rfl := Except.ok.inj hok
    exact h

theorem Ids.serve (h : Ids s) (r : Sender × Request) : Ids (serve s r) := by
  unfold Calendar.serve
  split
  · rename_i s' hok
    exact h.handle hok
  · exact h

theorem ids_loadFromDB (getGuildIdFromDB : ℕ → ℕ) (t : Tables) :
    Ids (loadFromDB getGuildIdFromDB t.events t.invites) := by
  unfold Ids
  rw [events_loadFromDB]
  exact IdPool.owns_ofUsed t.event_ids

theorem Ids.run (h : Ids s) (rs : List (Sender × Request)) : Ids (rs.foldl Calendar.serve s) := by
  induction rs generalizing s with
  | nil => exact h
  | cons r rs ih => exact ih (h.serve r)

theorem Ids.getEvent_eq_some (h : Ids s) {id : ℕ} {e : CalendarEvent} :
    s.getEvent id = some e ↔ e ∈ s.events ∧ e.eventId = id := by
  refine ⟨CalendarMgr.getEvent_eq_some, fun ⟨he, hid⟩ => ?_⟩
  have hfound : (s.getEvent id).isSome := by
    refine find?_isSome.mpr ⟨e, he, by simpa using hid⟩
  obtain ⟨e', he'⟩ := isSome_iff_exists.mp hfound
  obtain ⟨hmem, hid'⟩ := CalendarMgr.getEvent_eq_some he'
  have heq : e' = e := inj_on_of_nodup_map h.nodup_live hmem he (hid'.trans hid.symm)
  rw [he', heq]

end EventIds

/-- **What a player is shown** is right exactly if its invites are to events that exist. -/
theorem Ids.seesExactly_iff {s : CalendarMgr} (h : Ids s) (guid : ℕ) {guildId : Option ℕ}
    (hguild : guildId ≠ some 0) : SeesExactly s guid guildId ↔
      ∀ x ∈ s.invites, x.2.invitee = guid → ∃ e ∈ s.events, e.eventId = x.1 := by
  have hmem (o : Option CalendarEvent) : o ∈ s.getPlayerEvents guid guildId ↔
      (∃ x ∈ s.invites, x.2.invitee = guid ∧ s.getEvent x.1 = o) ∨
        ∃ e ∈ s.events, o = some e ∧ ∃ g ∈ guildId, g ≠ 0 ∧ e.guildId = g := by
    unfold getPlayerEvents
    rw [mem_append]
    refine or_congr (by simp [List.mem_map, and_assoc]) ?_
    cases guildId with
    | none => simp
    | some g =>
      have hg : g ≠ 0 := fun h0 => hguild (congrArg some h0)
      simp only [List.mem_map, mem_filter, decide_eq_true_eq, mem_some_iff]
      constructor
      · rintro ⟨e, ⟨he, rfl⟩, rfl⟩
        exact ⟨e, he, rfl, e.guildId, rfl, hg, rfl⟩
      rintro ⟨e, he, rfl, g, rfl, -, hge⟩
      exact ⟨e, ⟨he, hge⟩, rfl⟩
  constructor
  · intro hsees x hx hguid
    obtain ⟨e, -, heq, -⟩ := (hsees (s.getEvent x.1)).mp ((hmem _).mpr (Or.inl ⟨x, hx, hguid, rfl⟩))
    exact ⟨e, h.getEvent_eq_some.mp heq⟩
  intro hexists o
  rw [hmem]
  constructor
  · rintro (⟨x, hx, hguid, rfl⟩ | ⟨e, he, rfl, hg⟩)
    · obtain ⟨e, he, hid⟩ := hexists x hx hguid
      exact ⟨e, he, h.getEvent_eq_some.mpr ⟨he, hid⟩, Or.inl ⟨x, hx, hid.symm, hguid⟩⟩
    · exact ⟨e, he, rfl, Or.inr hg⟩
  rintro ⟨e, he, rfl, ⟨x, hx, hkey, hguid⟩ | hg⟩
  · exact Or.inl ⟨x, hx, hguid, h.getEvent_eq_some.mpr ⟨he, hkey.symm⟩⟩
  · exact Or.inr ⟨e, he, rfl, hg⟩

/-- **Naming and seeing.**  In every state a run can reach, whoever sends a request, it
changes or removes only the events and invites it names, those that change or remove something
do the same for every sender, and a player who is offline or in a guild is shown exactly the
events it is invited to and those of its guild, if and only if its invites are to events that
exist. -/
theorem onlyNamed_seesExactly (getGuildIdFromDB : ℕ → ℕ) (t : Tables)
    (rs : List (Sender × Request)) (s : CalendarMgr)
    (hs : s = rs.foldl serve (loadFromDB getGuildIdFromDB t.events t.invites)) :
    (∀ sender r, OnlyNamed s (serve s (sender, r)) r ∧ SenderFree s r) ∧
      ∀ guid guildId, guildId ≠ some 0 → (SeesExactly s guid guildId ↔
        ∀ x ∈ s.invites, x.2.invitee = guid → ∃ e ∈ s.events, e.eventId = x.1) := by
  have hids : Ids s := hs ▸ (ids_loadFromDB getGuildIdFromDB t).run rs
  exact ⟨fun sender r => ⟨onlyNamed_serve s sender r, senderFree s r⟩,
    fun guid guildId hguild => hids.seesExactly_iff guid hguild⟩

/-- The calendar of the two meetings. -/
theorem onlyNamed_seesExactly_twoMeetings :
    (∀ sender r, OnlyNamed (twoMeetings.foldl serve (loadFromDB (fun _ => 0) [] []))
        (serve (twoMeetings.foldl serve (loadFromDB (fun _ => 0) [] [])) (sender, r)) r ∧
      SenderFree (twoMeetings.foldl serve (loadFromDB (fun _ => 0) [] [])) r) ∧
    SeesExactly (twoMeetings.foldl serve (loadFromDB (fun _ => 0) [] [])) 2 (some 7) := by
  have h := onlyNamed_seesExactly (fun _ => 0) noTables twoMeetings _ rfl
  exact ⟨h.1, (h.2 2 (some 7) (by decide)).mpr (by decide +kernel)⟩

/-- **Somebody who has nothing to do with it removes an event.** -/
theorem outsider_removes_event : ¬ ∀ (getGuildIdFromDB : ℕ → ℕ) (t : Tables)
    (rs : List (Sender × Request)) (s : CalendarMgr),
    s = rs.foldl serve (loadFromDB getGuildIdFromDB t.events t.invites) →
      (∀ r, Authorised s r) ∧ ∀ guid guildId, SeesExactly s guid guildId := by
  intro h
  obtain ⟨hauth, -⟩ := h (fun _ => 0) noTables
    [(anna, .addEvent (some ⟨meeting, some 0, []⟩))] _ rfl
  have hevent := (hauth (bert, .removeEvent 1)).event
  have hmay := hevent (newEvent anna 1 meeting) (by decide +kernel) (by decide +kernel)
  rcases hmay with hcreator | ⟨x, hx, -⟩
  · revert hcreator
    decide
  revert hx
  decide +kernel +revert

end ZerosCore.Calendar
