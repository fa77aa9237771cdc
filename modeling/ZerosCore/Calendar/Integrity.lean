/-
# The calendar's ids and invites

Whatever the handlers of `src/server/game/Handlers/CalendarHandler.cpp` are asked,
ids should stay apart, every invite should belong to an event that exists, and
nobody should be invited to one event twice (`Intact`).

Two habits of the handlers break the last two.  `HandleCalendarAddEvent` stores
the invites as it reads them and the event at the end, so a packet that ends in
the middle leaves invites without an event (`torn_packet_orphans`); the copy of an
event is made the other way round.  And nobody looks whether a player is invited
already: not for the list of a new event, not when a player is invited and not when
it signs up.  The ids stay apart through all of it.  `intact_of_regular` proves
everything in every run without these two.

`copyInvites`, the loop of the copy, is also what the loop over a packet amounts to
(`readInvites_eq`), and whether the event is inserted before or after it makes no
difference to what is stored (`copyInvites_addEvent`).
-/

import ZerosCore.Calendar.Basic
import ZerosCore.Lib.Run

namespace ZerosCore.Calendar

open Lib List Option CalendarMgr CalendarEvent Multimap

/-! ### What is promised -/

/-- **An intact calendar.** -/
structure Intact (s : CalendarMgr) : Prop where
  event_ids : (s.events.map CalendarEvent.eventId).Nodup
  invite_ids : (s.invites.map fun x => x.2.inviteId).Nodup
  free_event_ids : s.eventIds.free.Nodup ∧ ∀ e ∈ s.events, e.eventId ∉ s.eventIds.free
  free_invite_ids : s.inviteIds.free.Nodup ∧ ∀ x ∈ s.invites, x.2.inviteId ∉ s.inviteIds.free
  own_event : ∀ x ∈ s.invites, x.2.eventId = x.1
  event_exists : ∀ x ∈ s.invites, ∃ e ∈ s.events, e.eventId = x.1
  invited_once : (s.invites.map fun x => (x.1, x.2.invitee)).Nodup

def Invited (s : CalendarMgr) (eventId guid : ℕ) : Prop :=
  ∃ x ∈ s.invites, x.1 = eventId ∧ x.2.invitee = guid

/-- The tables a server starts with: their ids are primary keys, and their invites
refer to existing events. -/
structure Tables where
  events : List CalendarEvent
  invites : List CalendarInvite
  event_ids : (events.map CalendarEvent.eventId).Nodup
  invite_ids : (invites.map CalendarInvite.inviteId).Nodup
  event_exists : ∀ i ∈ invites, i.eventId ∈ events.map CalendarEvent.eventId

/-- The invites a packet holds, out of those it announces. -/
def AddEventPacket.read (packet : AddEventPacket) : List PackedInvite :=
  packet.invites.take (packet.inviteCount.getD 0)

/-- **The condition.**  An event that is not an announcement is added by a packet
that is complete or holds no invite, and that names nobody twice; whoever is invited
or signs up is not invited to that event already. -/
def Regular (s : CalendarMgr) (r : Sender × Request) : Prop :=
  match r.2 with
  | .addEvent (some packet) => packet.fields.flags &&& calendarFlagWithoutInvites = 0 →
      (packet.inviteCount.getD 0 ≤ packet.invites.length ∨ packet.invites = []) ∧
        (packet.read.map PackedInvite.invitee).Nodup
  | .eventInvite allowTwoSide packet => ∀ e who,
      s.inviteTarget r.1 allowTwoSide packet = .ok (some (e, who)) →
        ¬ e.isGuildAnnouncement → ¬ Invited s packet.eventId who.guid
  | .eventSignup eventId _ _ => ∀ e, s.signupTarget r.1 eventId = .ok e →
      ¬ e.isGuildAnnouncement → ¬ Invited s eventId r.1.guid
  | _ => True

/-! ### Lists -/

section Lists

variable {α β : Type} {p : α → Bool} {f : α → α} {g : α → β} {l : List α}

theorem map_updateFirst (h : ∀ a, g (f a) = g a) : (updateFirst p f l).map g = l.map g := by
  induction l with
  | nil => rfl
  | cons a l ih =>
    rw [updateFirst]
    split_ifs
    · rw [map_cons, map_cons, h]
    · rw [map_cons, map_cons, ih]

theorem mem_updateFirst {a : α} (h : a ∈ updateFirst p f l) : a ∈ l ∨ ∃ b ∈ l, a = f b := by
  induction l with
  | nil => cases h
  | cons c l ih =>
    rw [updateFirst] at h
    split_ifs at h
    · rcases mem_cons.mp h with rfl | h
      · exact Or.inr ⟨c, mem_cons_self, rfl⟩
      · exact Or.inl (mem_cons_of_mem _ h)
    rcases mem_cons.mp h with rfl | h
    · exact Or.inl mem_cons_self
    rcases ih h with h | ⟨b, hb, hab⟩
    · exact Or.inl (mem_cons_of_mem _ h)
    · exact Or.inr ⟨b, mem_cons_of_mem _ hb, hab⟩

theorem exists_perm_eraseP (h : ∃ a ∈ l, p a) : ∃ a ∈ l, p a ∧ l.Perm (a :: l.eraseP p) := by
  obtain ⟨b, hb, hpb⟩ := h
  obtain ⟨a, l1, l2, -, ha, hl, he⟩ := exists_of_eraseP hb hpb
  refine ⟨a, by rw [hl]; exact mem_append_right _ mem_cons_self, ha, ?_⟩
  rw [he]
  exact hl ▸ perm_middle

end Lists

namespace CalendarMgr

variable {s : CalendarMgr} {sender : Sender} {e : CalendarEvent} {invite : CalendarInvite}
  {invites : List CalendarInvite} {id k : ℕ}

/-! ### The invariant -/

/-- **The invariant**, in terms of what the lists read. -/
structure Kept (s : CalendarMgr) : Prop where
  events : s.eventIds.Owns (s.events.map CalendarEvent.eventId)
  invites : s.inviteIds.Owns (s.invites.map fun x => x.2.inviteId)
  own : ∀ x ∈ s.invites, x.2.eventId = x.1
  event_exists : ∀ x ∈ s.invites, x.1 ∈ s.events.map CalendarEvent.eventId
  once : (s.invites.map fun x => (x.1, x.2.invitee)).Nodup

theorem Kept.intact (h : s.Kept) : Intact s where
  event_ids := h.events.nodup_live
  invite_ids := h.invites.nodup_live
  free_event_ids := ⟨h.events.nodup_free, fun _ he =>
    h.events.not_mem_free (mem_map_of_mem he)⟩
  free_invite_ids := ⟨h.invites.nodup_free, fun x hx =>
    h.invites.not_mem_free (mem_map.mpr ⟨x, hx, rfl⟩)⟩
  own_event := h.own
  event_exists x hx := mem_map.mp (h.event_exists x hx)
  invited_once := h.once

/-! ### Ids that are taken -/

theorem Kept.getFreeEventId (h : s.Kept) : s.getFreeEventId.2.Kept :=
  { h with events := h.events.take.sublist (sublist_cons_self _ _) }

theorem Kept.getFreeInviteId (h : s.Kept) : s.getFreeInviteId.2.Kept :=
  { h with invites := h.invites.take.sublist (sublist_cons_self _ _) }

/-- **A new event** under an id just taken. -/
theorem Kept.addEvent (h : s.Kept) (hid : e.eventId = s.getFreeEventId.1) :
    (s.getFreeEventId.2.addEvent e).Kept :=
  { h with
    events := by
      show s.eventIds.take.2.Owns (e.eventId :: s.events.map eventId)
      rw [hid]
      exact h.events.take
    event_exists x hx := mem_cons_of_mem _ (h.event_exists x hx) }

theorem Kept.not_invited_free (h : s.Kept) (guid : ℕ) : ¬ Invited s s.getFreeEventId.1 guid := by
  rintro ⟨x, hx, hkey, -⟩
  have hmem := h.event_exists x hx
  rw [hkey] at hmem
  exact (nodup_cons.mp h.events.take.nodup_live).1 hmem

/-- **A new invite** under an id just taken, to an event that exists, for somebody who is not
invited. -/
theorem Kept.addInvite (h : s.Kept) (hid : invite.inviteId = s.getFreeInviteId.1)
    (hevent : invite.eventId ∈ s.events.map eventId)
    (hnew : ¬ e.isGuildAnnouncement → ¬ Invited s invite.eventId invite.invitee) :
    (s.getFreeInviteId.2.addInvite e invite).Kept := by
  unfold CalendarMgr.addInvite
  split_ifs with hann
  · exact h.getFreeInviteId
  have hperm : (insert Prod.fst (invite.eventId, invite) s.invites).Perm
      ((invite.eventId, invite) :: s.invites) := insert_perm
  refine ⟨h.events, ?_, fun x hx => ?_, fun x hx => ?_, ?_⟩
  · refine IdPool.Owns.perm ?_ (hperm.map fun x => x.2.inviteId).symm
    show s.inviteIds.take.2.Owns (invite.inviteId :: s.invites.map fun x => x.2.inviteId)
    rw [hid]
    exact h.invites.take
  · rcases mem_insert.mp hx with rfl | hx
    · rfl
    · exact h.own x hx
  · rcases mem_insert.mp hx with rfl | hx
    · exact hevent
    · exact h.event_exists x hx
  refine (hperm.map fun x => (x.1, x.2.invitee)).nodup_iff.mpr ?_
  refine nodup_cons.mpr ⟨fun hmem => hnew hann ?_, h.once⟩
  obtain ⟨x, hx, heq⟩ := mem_map.mp hmem
  rw [Prod.mk.injEq] at heq
  exact ⟨x, hx, heq⟩

theorem invited_addInvite {guid : ℕ} (h : Invited (s.getFreeInviteId.2.addInvite e invite) k guid) :
    Invited s k guid ∨ guid = invite.invitee := by
  unfold addInvite at h
  split_ifs at h
  · exact Or.inl h
  obtain ⟨x, hx, hkey, hguid⟩ := h
  rcases mem_insert.mp hx with rfl | hx
  · exact Or.inr hguid.symm
  · exact Or.inl ⟨x, hx, hkey, hguid⟩

theorem events_addInvite (s : CalendarMgr) (e : CalendarEvent) (invite : CalendarInvite) :
    (s.addInvite e invite).events = s.events := by
  unfold addInvite
  split_ifs <;> rfl

/-! ### Loops over invites -/

theorem copyInvites_cons (e : CalendarEvent) (s : CalendarMgr) (invite : CalendarInvite)
    (invites : List CalendarInvite) :
    copyInvites e s (invite :: invites) = copyInvites e (s.getFreeInviteId.2.addInvite e
      { invite with inviteId := s.getFreeInviteId.1, eventId := e.eventId }) invites := rfl

/-- **A loop over invites** of different players who are not invited yet. -/
theorem Kept.copyInvites (h : s.Kept) (hevent : e.eventId ∈ s.events.map eventId)
    (hnodup : (invites.map CalendarInvite.invitee).Nodup)
    (hnew : ∀ i ∈ invites, ¬ Invited s e.eventId i.invitee) : (copyInvites e s invites).Kept := by
  induction invites generalizing s with
  | nil => exact h
  | cons invite invites ih =>
    obtain ⟨hhead, htail⟩ := nodup_cons.mp hnodup
    refine ih (h.addInvite rfl hevent fun _ => hnew invite mem_cons_self) ?_ htail ?_
    · rw [events_addInvite]
      exact hevent
    intro i hi hinv
    rcases invited_addInvite hinv with hinv | heq
    · exact hnew i (mem_cons_of_mem _ hi) hinv
    · exact hhead (mem_map.mpr ⟨i, hi, heq⟩)

theorem copyInvites_addEvent (s : CalendarMgr) (invites : List CalendarInvite) :
    (copyInvites e s invites).addEvent e = copyInvites e (s.addEvent e) invites := by
  induction invites generalizing s with
  | nil => rfl
  | cons invite invites ih =>
    rw [copyInvites_cons, copyInvites_cons, ih]
    unfold addInvite
    split_ifs <;> rfl

/-- The invite a packet asks for, before it has an id. -/
def draft (sender : Sender) (e : CalendarEvent) (x : PackedInvite) : CalendarInvite :=
  ⟨0, e.eventId, x.invitee, sender.guid, defaultResponseTime, x.status, x.rank, ""⟩

/-- **The loop over a packet** is the loop over the invites it holds. -/
theorem readInvites_eq (s : CalendarMgr) (n : ℕ) (xs : List PackedInvite) :
    readInvites sender e s n xs =
      (copyInvites e s ((xs.take n).map (draft sender e)), decide (n ≤ xs.length)) := by
  induction xs generalizing s n with
  | nil =>
    cases n with
    | zero => rfl
    | succ n => rfl
  | cons x xs ih =>
    cases n with
    | zero => rfl
    | succ n =>
      rw [readInvites, take_succ_cons, map_cons, copyInvites_cons]
      dsimp only
      rw [ih]
      simp [draft]

/-! ### Deleting and changing -/

theorem getEvent_eq_some (h : s.getEvent id = some e) : e ∈ s.events ∧ e.eventId = id :=
  ⟨mem_of_find?_eq_some h, by simpa using find?_some h⟩

theorem mem_map_of_getEvent (h : s.getEvent id = some e) : id ∈ s.events.map eventId := by
  obtain ⟨he, hid⟩ := getEvent_eq_some h
  exact mem_map.mpr ⟨e, he, hid⟩

theorem perm_eraseP_of_getEvent (h : s.getEvent id = some e) : ∃ a : CalendarEvent,
    a.eventId = e.eventId ∧ s.events.Perm (a :: s.events.eraseP fun e => e.eventId = id) := by
  obtain ⟨hmem, hid⟩ := getEvent_eq_some h
  obtain ⟨a, -, ha, hperm⟩ := exists_perm_eraseP (p := fun e : CalendarEvent => e.eventId = id)
    ⟨e, hmem, by simpa using hid⟩
  have haid : a.eventId = id := of_decide_eq_true ha
  exact ⟨a, haid.trans hid.symm, hperm⟩

variable {s' : CalendarMgr}

/-- **Removing an event** with its invites. -/
theorem Kept.removeEvent (h : s.Kept) (hok : s.removeEvent id = .ok s') : s'.Kept := by
  unfold CalendarMgr.removeEvent at hok
  split at hok
  · cases hok
  rename_i e he
  obtain rfl := Except.ok.inj hok
  obtain ⟨a, ha, hperm⟩ := perm_eraseP_of_getEvent he
  have hsplit : ((s.getEventInvites id).map CalendarInvite.inviteId ++
      (s.invites.filter fun x => x.1 ≠ id).map fun x => x.2.inviteId).Perm
        (s.invites.map fun x => x.2.inviteId) := by
    have := (List.filter_append_perm (fun x : ℕ × CalendarInvite => decide (x.1 = id))
      s.invites).map fun x => x.2.inviteId
    simpa [getEventInvites, map_append, Function.comp_def] using this
  refine ⟨?_, (h.invites.perm hsplit.symm).give_all, fun x hx => ?_, fun x hx => ?_, ?_⟩
  · refine IdPool.Owns.give (h.events.perm ?_)
    exact ha ▸ hperm.map eventId
  · exact h.own x (mem_filter.mp hx).1
  · -- an event with another id is still there
    obtain ⟨hx, hne⟩ := mem_filter.mp hx
    obtain ⟨b, hb, hbid⟩ := mem_map.mp (h.event_exists x hx)
    refine mem_map.mpr ⟨b, ?_, hbid⟩
    exact (mem_eraseP_of_neg (by rw [hbid]; simpa using hne)).mpr hb
  · exact h.once.sublist (filter_sublist.map _)

/-- **Removing an invite.** -/
theorem Kept.removeInvite (h : s.Kept) : (s.removeInvite id k).Kept := by
  unfold CalendarMgr.removeInvite
  split
  · exact h
  split_ifs with hany
  · obtain ⟨x, hx, hp⟩ := any_eq_true.mp hany
    obtain ⟨a, -, ha, hperm⟩ := exists_perm_eraseP
      (p := fun x : ℕ × CalendarInvite => x.1 = k ∧ x.2.inviteId = id) ⟨x, hx, hp⟩
    have hsub : (s.invites.eraseP fun x => x.1 = k ∧ x.2.inviteId = id).Sublist s.invites :=
      eraseP_sublist
    refine ⟨h.events, ?_, fun x hx => h.own x (hsub.subset hx),
      fun x hx => h.event_exists x (hsub.subset hx), h.once.sublist (hsub.map _)⟩
    refine IdPool.Owns.give (h.invites.perm ?_)
    have haid : a.2.inviteId = id := by
      have := of_decide_eq_true ha
      exact this.2
    simpa [haid] using hperm.map fun x => x.2.inviteId
  · exact h

/-- **Changing an event** under its id. -/
theorem Kept.updateEvent (h : s.Kept) {f : CalendarEvent → CalendarEvent}
    (hf : ∀ e, (f e).eventId = e.eventId) : (s.updateEvent id f).Kept := by
  have hmap : (s.updateEvent id f).events.map eventId = s.events.map eventId := map_updateFirst hf
  refine ⟨?_, h.invites, h.own, ?_, h.once⟩
  · rw [hmap]
    exact h.events
  rw [hmap]
  exact h.event_exists

/-- **Changing an invite** that stays the same player's to the same event. -/
theorem Kept.updateInvite (h : s.Kept) {f : CalendarInvite → CalendarInvite}
    (hid : ∀ i, (f i).inviteId = i.inviteId) (hevent : ∀ i, (f i).eventId = i.eventId)
    (hinvitee : ∀ i, (f i).invitee = i.invitee) : (s.updateInvite id f).Kept := by
  have hids : (s.updateInvite id f).invites.map (·.2.inviteId) =
      s.invites.map fun x => x.2.inviteId := map_updateFirst fun x => hid x.2
  have hpairs : (s.updateInvite id f).invites.map (fun x => (x.1, x.2.invitee)) =
      s.invites.map fun x => (x.1, x.2.invitee) :=
    map_updateFirst fun x => congrArg (Prod.mk x.1) (hinvitee x.2)
  refine ⟨h.events, ?_, fun x hx => ?_, fun x hx => ?_, ?_⟩
  · rw [hids]
    exact h.invites
  · rcases mem_updateFirst hx with hx | ⟨y, hy, rfl⟩
    · exact h.own x hx
    · exact (hevent y.2).trans (h.own y hy)
  · rcases mem_updateFirst hx with hx | ⟨y, hy, rfl⟩
    · exact h.event_exists x hx
    · exact h.event_exists y hy
  rw [hpairs]
  exact h.once

/-! ### The handlers -/

/-- **Adding an event.** -/
theorem Kept.handleAddEvent {packet : AddEventPacket} (h : s.Kept)
    (hreg : packet.fields.flags &&& calendarFlagWithoutInvites = 0 →
      (packet.inviteCount.getD 0 ≤ packet.invites.length ∨ packet.invites = []) ∧
        (packet.read.map PackedInvite.invitee).Nodup) : (s.handleAddEvent sender packet).Kept := by
  unfold CalendarMgr.handleAddEvent
  dsimp only
  set e := newEvent sender s.getFreeEventId.1 packet.fields with he
  split_ifs with hann
  · rw [CalendarMgr.addInvite, if_pos hann]
    exact h.addEvent rfl
  obtain ⟨hcomplete, hnodup⟩ := hreg <| by
    simpa [isGuildAnnouncement, he, newEvent] using hann
  split
  · exact h.getFreeEventId
  rename_i n hn
  rw [readInvites_eq]
  rw [AddEventPacket.read, hn] at hnodup
  split_ifs with hlen
  · rw [copyInvites_addEvent]
    refine (h.addEvent rfl).copyInvites List.mem_cons_self ?_ fun i _ => ?_
    · rw [List.map_map]
      exact hnodup
    -- what was filed before belongs to other events
    exact fun hinv => h.not_invited_free i.invitee hinv
  -- the packet ended, but nothing had been read
  have hnil : packet.invites = [] := hcomplete.resolve_left (by simpa [hn] using hlen)
  rw [hnil, take_nil]
  exact h.getFreeEventId

/-- **Copying an event.** -/
theorem Kept.handleCopyEvent {time : ℕ} (h : s.Kept)
    (hok : s.handleCopyEvent id time = .ok s') : s'.Kept := by
  unfold CalendarMgr.handleCopyEvent at hok
  split at hok
  · cases hok
  rename_i old hold
  obtain rfl := Except.ok.inj hok
  refine (h.addEvent rfl).copyInvites mem_cons_self ?_ fun i _ => ?_
  · -- the invites of one event are of different players
    have hsub : ((s.invites.filter fun x => x.1 = id).map fun x => (x.1, x.2.invitee)).Nodup :=
      h.once.sublist (filter_sublist.map _)
    show ((s.getEventInvites id).map CalendarInvite.invitee).Nodup
    rw [getEventInvites, List.map_map]
    refine List.Nodup.of_map (Prod.mk id) ?_
    rw [List.map_map]
    refine (List.map_congr_left fun x hx => ?_) ▸ hsub
    have hkey : x.1 = id := by simpa using (mem_filter.mp hx).2
    rw [hkey]
    rfl
  · exact fun hinv => h.not_invited_free i.invitee hinv

theorem getEvent_of_inviteTarget {allowTwoSide : Bool} {packet : EventInvitePacket} {who : Invitee}
    (h : s.inviteTarget sender allowTwoSide packet = .ok (some (e, who))) :
    s.getEvent packet.eventId = some e := by
  unfold inviteTarget at h
  split at h
  · cases h
  split_ifs at h
  · cases Except.ok.inj h
  split at h
  · cases h
  rename_i e' he'
  split_ifs at h
  · obtain ⟨rfl, -⟩ := Prod.mk.inj (some.inj (Except.ok.inj h))
    exact he'

theorem getEvent_of_signupTarget (h : s.signupTarget sender id = .ok e) :
    s.getEvent id = some e := by
  unfold signupTarget at h
  split at h
  · cases h
  rename_i e' he'
  split_ifs at h
  exact he'.trans (congrArg some (Except.ok.inj h))

/-- **One request**, whichever it is. -/
theorem Kept.handle {r : Request} (h : s.Kept) (hreg : Regular s (sender, r))
    (hok : s.handle sender r = .ok s') : s'.Kept := by
  cases r with
  | addEvent packet =>
    cases packet with
    | none =>
      obtain rfl := Except.ok.inj hok
      exact h
    | some packet =>
      obtain rfl := Except.ok.inj hok
      exact h.handleAddEvent hreg
  | updateEvent eventId fields =>
    simp only [CalendarMgr.handle, handleUpdateEvent] at hok
    split at hok
    · cases hok
    obtain rfl := Except.ok.inj hok
    exact h.updateEvent fun _ => rfl
  | removeEvent eventId => exact h.removeEvent hok
  | copyEvent eventId time => exact h.handleCopyEvent hok
  | eventInvite allowTwoSide packet =>
    simp only [CalendarMgr.handle, handleEventInvite] at hok
    split at hok
    · cases hok
    · obtain rfl := Except.ok.inj hok
      exact h
    rename_i e who htarget
    obtain rfl := Except.ok.inj hok
    exact h.addInvite rfl (mem_map_of_getEvent (getEvent_of_inviteTarget htarget))
      (hreg e who htarget)
  | eventSignup eventId tentative now =>
    simp only [CalendarMgr.handle, handleEventSignup] at hok
    split at hok
    · cases hok
    rename_i e htarget
    obtain rfl := Except.ok.inj hok
    exact h.addInvite rfl (mem_map_of_getEvent (getEvent_of_signupTarget htarget)) (hreg e htarget)
  | eventRsvp eventId inviteId status now =>
    simp only [CalendarMgr.handle, handleEventRsvp] at hok
    split at hok
    · cases hok
    split_ifs at hok
    split at hok
    · cases hok
    obtain rfl := Except.ok.inj hok
    exact h.updateInvite (fun _ => rfl) (fun _ => rfl) fun _ => rfl
  | eventRemoveInvite invitee inviteId eventId =>
    simp only [CalendarMgr.handle, handleEventRemoveInvite] at hok
    split at hok
    · cases hok
    split_ifs at hok
    obtain rfl := Except.ok.inj hok
    exact h.removeInvite
  | eventStatus eventId inviteId status | eventModeratorStatus eventId inviteId rank =>
    simp only [CalendarMgr.handle, handleEventStatus, handleEventModeratorStatus,
      setOnInvite] at hok
    split at hok
    · cases hok
    split at hok
    · cases hok
    obtain rfl := Except.ok.inj hok
    exact h.updateInvite (fun _ => rfl) (fun _ => rfl) fun _ => rfl

/-- **Every packet** of a regular run keeps the calendar whole. -/
theorem Kept.serve {r : Sender × Request} (h : s.Kept) (hreg : Regular s r) : (serve s r).Kept := by
  unfold Calendar.serve
  split
  · rename_i s' hok
    exact h.handle hreg hok
  · exact h

/-! ### Loading -/

theorem foldl_insert_perm (rows : List CalendarInvite) (l : List (ℕ × CalendarInvite)) :
    (rows.foldl (fun l invite => insert Prod.fst (invite.eventId, invite) l) l).Perm
      (rows.map (fun invite => (invite.eventId, invite)) ++ l) := by
  induction rows generalizing l with
  | nil => exact List.Perm.refl l
  | cons row rows ih =>
    refine (ih _).trans ?_
    refine ((Perm.append_left _ insert_perm).trans ?_)
    exact perm_middle

theorem events_loadFromDB (getGuildIdFromDB : ℕ → ℕ) (events : List CalendarEvent)
    (invites : List CalendarInvite) :
    (loadFromDB getGuildIdFromDB events invites).events.map eventId = events.map eventId := by
  show (events.map _).map _ = _
  rw [List.map_map]
  rfl

/-- **The tables as loaded**, if they invite nobody to one event twice. -/
theorem kept_loadFromDB (getGuildIdFromDB : ℕ → ℕ) (t : Tables)
    (honce : (t.invites.map fun i => (i.eventId, i.invitee)).Nodup) :
    (loadFromDB getGuildIdFromDB t.events t.invites).Kept := by
  have hperm := foldl_insert_perm t.invites []
  rw [append_nil] at hperm
  have hids := events_loadFromDB getGuildIdFromDB t.events t.invites
  have hmem (x : ℕ × CalendarInvite)
      (hx : x ∈ (loadFromDB getGuildIdFromDB t.events t.invites).invites) :
      ∃ i ∈ t.invites, (i.eventId, i) = x := mem_map.mp (hperm.mem_iff.mp hx)
  refine ⟨?_, ?_, fun x hx => ?_, fun x hx => ?_, ?_⟩
  · rw [hids]
    exact IdPool.owns_ofUsed t.event_ids
  · refine (IdPool.owns_ofUsed t.invite_ids).perm ?_
    have := hperm.map fun x => x.2.inviteId
    rw [List.map_map] at this
    exact this.symm
  · obtain ⟨i, -, rfl⟩ := hmem x hx
    rfl
  · obtain ⟨i, hi, rfl⟩ := hmem x hx
    rw [hids]
    exact t.event_exists i hi
  have := hperm.map fun x => (x.1, x.2.invitee)
  rw [List.map_map] at this
  exact this.nodup_iff.mpr honce

end CalendarMgr

/-! ### Runs -/

open CalendarMgr

/-- **Integrity.**  Along every run of calendar requests, on tables that invite
nobody to one event twice, in which no packet of a new event ends after its first
invite or names a player twice and nobody is invited or signs up who is invited to
that event already, the calendar is intact from the load on. -/
theorem intact_of_regular (getGuildIdFromDB : ℕ → ℕ) (t : Tables)
    (honce : (t.invites.map fun i => (i.eventId, i.invitee)).Nodup) (rs : List (Sender × Request))
    (h : Along serve Regular (loadFromDB getGuildIdFromDB t.events t.invites) rs) :
    Intact (loadFromDB getGuildIdFromDB t.events t.invites) ∧
      Along serve (fun s r => Intact (serve s r))
        (loadFromDB getGuildIdFromDB t.events t.invites) rs := by
  have hload := kept_loadFromDB getGuildIdFromDB t honce
  refine ⟨hload.intact, ?_⟩
  exact Along.of_invariant (I := Kept) (fun s r hs hr => hs.serve hr)
    (fun s r hs hr => (hs.serve hr).intact) hload h

/-- An empty pair of tables. -/
def noTables : Tables := ⟨[], [], by decide, by decide, by decide⟩

/-- Two players without a guild. -/
def anna : Sender := ⟨1, 0, 469⟩

@[inherit_doc anna]
def bert : Sender := ⟨2, 0, 469⟩

/-- An event that is neither a guild event nor an announcement. -/
def meeting : EventFields := ⟨3, -1, 100, 100, 0, "meeting", ""⟩

/-- Anna invites Bert to a new event, Bert accepts, Anna copies it and removes the first. -/
def twoMeetings : List (Sender × Request) :=
  [(anna, .addEvent (some ⟨meeting, some 1, [⟨2, 0, 0⟩]⟩)), (bert, .eventRsvp 1 1 1 50),
   (anna, .copyEvent 1 200), (anna, .removeEvent 1)]

theorem regular_twoMeetings : Along serve Regular (loadFromDB (fun _ => 0) [] []) twoMeetings :=
  ⟨by show _ = _ → _; decide +kernel, trivial, trivial, trivial, trivial⟩

/-- A run the condition allows. -/
theorem intact_of_regular_twoMeetings :
    Along serve Regular (loadFromDB (fun _ => 0) [] []) twoMeetings ∧
      Intact (loadFromDB (fun _ => 0) [] []) ∧
      Along serve (fun s r => Intact (serve s r)) (loadFromDB (fun _ => 0) [] []) twoMeetings :=
  ⟨regular_twoMeetings,
    intact_of_regular (fun _ => 0) noTables (by decide) twoMeetings regular_twoMeetings⟩

/-- **A packet that ends in the middle** of its invites leaves the first one without an event. -/
theorem torn_packet_orphans : ¬ ∀ (getGuildIdFromDB : ℕ → ℕ) (t : Tables)
    (rs : List (Sender × Request)), Intact (loadFromDB getGuildIdFromDB t.events t.invites) ∧
      Along serve (fun s r => Intact (serve s r))
        (loadFromDB getGuildIdFromDB t.events t.invites) rs := by
  intro h
  obtain ⟨-, hgone, -⟩ := h (fun _ => 0) noTables
    [(anna, .addEvent (some ⟨meeting, some 2, [⟨2, 0, 0⟩]⟩))]
  have hexists := hgone.event_exists
  revert hexists
  decide +kernel

end ZerosCore.Calendar
