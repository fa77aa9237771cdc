/-
# The roster of a battlefield

A battlefield has places for so many players of each side, in the war or invited to it, and a
player gets into the war by an invitation, which he may refuse, and which runs out.

`PlayerAcceptInviteToWar` does not ask for the invitation: whoever sends the guid of the
battlefield gets in.  And the pass over the invitations that have run out teleports the players,
if it finds them in the zone, but takes no invitation out of the map; those of the queue, who
were never in the zone, keep theirs over all battles to come.  The roster is right exactly in the
runs in which nobody gets into the war uninvited, and no pass finds an invitation that has run
out (`roster_right_iff`).
-/

import ZerosCore.Battlefields.Battlefield

namespace ZerosCore.Battlefields

open Battlegrounds (Team)
open Lib Battlefield List

variable {c : Config} {w : World} {s t u : Battlefield} {team : Team} {guid g : ℕ}
  {l : List ℕ} {m : List (ℕ × ℕ)} {e : ℕ × ℕ}

/-! ### What the roster should be -/

/-- A request runs the pass over the invitations: a battle lasts, or starts, and it is time. -/
def kickPass (s : Battlefield) : Request → Bool
  | .update diff => (if s.timer ≤ diff then !s.isActive else s.isActive) &&
      s.kickDontAcceptTimer ≤ diff
  | _ => false

/-- The roster after a step, seen from the one before. -/
structure RosterRight (c : Config) (s : Battlefield) (r : World × Request) (t : Battlefield) :
    Prop where
  /-- There is a place for everybody in the war, and with an invitation that has not run out. -/
  places : t.isActive = true → ∀ team, (t.playersInWar team).length +
    (t.invitedPlayers team).countP (fun e => r.1.now < e.2) ≤ c.maxPlayer
  entered : ∀ team, ∀ g ∈ t.playersInWar team,
    g ∈ s.playersInWar team ∨ g ∈ keys (s.invitedPlayers team)
  /-- Who is invited has the level. -/
  level : ∀ team, ∀ g ∈ keys (t.invitedPlayers team),
    g ∈ keys (s.invitedPlayers team) ∨ c.minLevel ≤ r.1.level g
  apart : ∀ team, ∀ g ∈ t.playersInWar team, g ∉ keys (t.invitedPlayers team)
  gone : kickPass s r.2 = true → ∀ team, ∀ e ∈ t.invitedPlayers team, r.1.now < e.2

/-- A request by which nobody gets into the war uninvited, and no pass that finds an invitation
that has run out. -/
def Asked (c : Config) (s : Battlefield) : World × Request → Prop
  | (w, .entryInviteResponse guid battlefield accepted) =>
    battlefield = c.guid ∧ accepted = true ∧ s.isActive = true ∧ w.isInWorld guid = true →
      guid ∈ s.playersInWar (w.team guid) ∨ guid ∈ keys (s.invitedPlayers (w.team guid))
  | (w, .update diff) => kickPass s (.update diff) = true →
      ∀ team, ∀ e ∈ s.invitedPlayers team, w.now < e.2
  | _ => True

/-- What holds between two requests. -/
structure Inv (c : Config) (s : Battlefield) : Prop where
  places : ∀ team, (s.playersInWar team).length + (s.invitedPlayers team).length ≤ c.maxPlayer
  apart : ∀ team, ∀ g ∈ s.playersInWar team, g ∉ keys (s.invitedPlayers team)

/-! ### Sets and maps -/

theorem mem_insertGuid : g ∈ insertGuid l guid ↔ g = guid ∨ g ∈ l := by
  rw [insertGuid]
  split
  · rename_i hmem
    exact ⟨.inr, fun h => h.elim (fun heq => heq ▸ hmem) id⟩
  · exact mem_orderedInsert _

theorem length_insertGuid : (insertGuid l guid).length = l.length + if guid ∈ l then 0 else 1 := by
  rw [insertGuid]
  split
  · rfl
  · rw [orderedInsert_length]

theorem mem_eraseKey : e ∈ eraseKey m guid ↔ e ∈ m ∧ e.1 ≠ guid := by
  rw [eraseKey, mem_filter, decide_eq_true_iff]

theorem mem_keys_eraseKey : g ∈ keys (eraseKey m guid) ↔ g ∈ keys m ∧ g ≠ guid := by
  simp only [keys, mem_map, mem_eraseKey]
  constructor
  · rintro ⟨e, ⟨he, hne⟩, rfl⟩
    exact ⟨⟨e, he, rfl⟩, hne⟩
  rintro ⟨⟨e, he, rfl⟩, hne⟩
  exact ⟨e, ⟨he, hne⟩, rfl⟩

theorem length_eraseKey_le (m : List (ℕ × ℕ)) (guid : ℕ) : (eraseKey m guid).length ≤ m.length :=
  length_filter_le _ _

theorem length_eraseKey_lt (h : guid ∈ keys m) : (eraseKey m guid).length < m.length := by
  obtain ⟨e, he, rfl⟩ := mem_map.mp h
  exact length_filter_lt_length_iff_exists.mpr ⟨e, he, by simp⟩

theorem eraseKey_of_not_mem (h : guid ∉ keys m) : eraseKey m guid = m :=
  filter_eq_self.mpr fun e he => decide_eq_true fun heq => h (mem_map.mpr ⟨e, he, heq⟩)

variable {time : ℕ}

theorem mem_setKey : e ∈ setKey m guid time ↔ e = (guid, time) ∨ e ∈ m ∧ e.1 ≠ guid := by
  rw [setKey, mem_orderedInsert, mem_eraseKey]

theorem length_setKey (h : guid ∉ keys m) : (setKey m guid time).length = m.length + 1 := by
  rw [setKey, orderedInsert_length, eraseKey_of_not_mem h]

variable {α : Type}

theorem modify_self (f : Team → α) (k : α → α) : modify f team k team = k (f team) :=
  Function.update_self ..

theorem modify_of_ne (f : Team → α) (k : α → α) {team' : Team} (h : team' ≠ team) :
    modify f team k team' = f team' :=
  Function.update_of_ne h ..

/-! ### Invitations -/

/-- Invitations are sent out: those that were there stay, and new ones are to players of the
level who are not in the war, and have yet to run out. -/
structure Invites (c : Config) (w : World) (s t : Battlefield) : Prop where
  isActive : t.isActive = s.isActive
  kickTimer : t.kickDontAcceptTimer = s.kickDontAcceptTimer
  war : t.playersInWar = s.playersInWar
  players : t.players = s.players
  old : ∀ team, ∀ e ∈ s.invitedPlayers team, e ∈ t.invitedPlayers team
  new : ∀ team, ∀ e ∈ t.invitedPlayers team, e ∈ s.invitedPlayers team ∨
    e.2 = w.now + timeForAcceptInvite ∧ e.1 ∉ s.playersInWar team ∧ c.minLevel ≤ w.level e.1
  places : ∀ team, (s.playersInWar team).length + (s.invitedPlayers team).length ≤ c.maxPlayer →
    (t.playersInWar team).length + (t.invitedPlayers team).length ≤ c.maxPlayer

theorem Invites.refl (c : Config) (w : World) (s : Battlefield) : Invites c w s s :=
  ⟨rfl, rfl, rfl, rfl, fun _ _ h => h, fun _ _ h => .inl h, fun _ h => h⟩

theorem Invites.trans (h : Invites c w s t) (h' : Invites c w t u) : Invites c w s u := by
  refine ⟨h'.isActive.trans h.isActive, h'.kickTimer.trans h.kickTimer, h'.war.trans h.war,
    h'.players.trans h.players, fun team e he => h'.old team e (h.old team e he),
    fun team e he => ?_, fun team hs => h'.places team (h.places team hs)⟩
  rcases h'.new team e he with hold | ⟨htime, hwar, hlevel⟩
  · exact h.new team e hold
  · exact .inr ⟨htime, h.war ▸ hwar, hlevel⟩

theorem Invites.of_eq (hactive : t.isActive = s.isActive)
    (htimer : t.kickDontAcceptTimer = s.kickDontAcceptTimer)
    (hwar : t.playersInWar = s.playersInWar) (hplayers : t.players = s.players)
    (hinvited : t.invitedPlayers = s.invitedPlayers) : Invites c w s t := by
  refine ⟨hactive, htimer, hwar, hplayers, fun team e he => ?_, fun team e he => ?_,
    fun team hs => ?_⟩
  · rwa [hinvited]
  · exact .inl (hinvited ▸ he)
  · rwa [hwar, hinvited]

/-- **An invitation** goes out where there is a place. -/
theorem invites_invite (hplace : s.hasVacancy c (w.team guid) = true) :
    Invites c w s (s.invitePlayerToWar c w guid) := by
  rw [hasVacancy, decide_eq_true_iff] at hplace
  simp only [invitePlayerToWar]
  split
  · exact .refl c w s
  split
  · exact .of_eq rfl rfl rfl rfl rfl
  split
  · split
    · exact .refl c w s
    · exact .of_eq rfl rfl rfl rfl rfl
  rename_i hlevel
  split
  · exact .refl c w s
  rename_i hnew
  rw [not_or] at hnew
  refine ⟨rfl, rfl, rfl, rfl, fun team e he => ?_, fun team e he => ?_, fun team hs => ?_⟩
  · dsimp only
    by_cases hteam : team = w.team guid
    · subst hteam
      rw [modify_self, mem_setKey]
      exact .inr ⟨he, fun heq => hnew.2 (mem_map.mpr ⟨e, he, heq⟩)⟩
    · rwa [modify_of_ne _ _ hteam]
  · dsimp only at he
    by_cases hteam : team = w.team guid
    · subst hteam
      rw [modify_self, mem_setKey] at he
      rcases he with rfl | hold
      · exact .inr ⟨rfl, hnew.1, Nat.le_of_not_lt hlevel⟩
      · exact .inl hold.1
    rw [modify_of_ne _ _ hteam] at he
    exact .inl he
  dsimp only
  by_cases hteam : team = w.team guid
  · subst hteam
    rw [modify_self, length_setKey hnew.2]
    omega
  · rwa [modify_of_ne _ _ hteam]

theorem invites_foldl {f : Battlefield → α → Battlefield}
    (hf : ∀ s a, Invites c w s (f s a)) (l : List α) (s : Battlefield) :
    Invites c w s (l.foldl f s) := by
  induction l generalizing s with
  | nil => exact .refl c w s
  | cons a l ih => exact (hf s a).trans (ih (f s a))

theorem invites_zone (s : Battlefield) : Invites c w s (s.invitePlayersInZoneToWar c w) := by
  refine invites_foldl (fun s team => invites_foldl (fun s guid => ?_) _ s) _ s
  simp only [inviteFromZone]
  split
  · split
    · exact .refl c w s
    split
    · rename_i hplace
      exact invites_invite hplace
    · exact .of_eq rfl rfl rfl rfl rfl
  · exact .refl c w s

theorem invites_queue (s : Battlefield) : Invites c w s (s.invitePlayersInQueueToWar c w) := by
  refine invites_foldl (fun s team => ?_) _ s
  have hqueue : Invites c w s ((s.playersInQueue team).foldl (inviteFromQueue c w) s) := by
    refine invites_foldl (fun s guid => ?_) _ s
    rw [inviteFromQueue]
    split
    · rename_i hplace
      rw [Bool.and_eq_true] at hplace
      exact invites_invite hplace.2
    · exact .refl c w s
  exact hqueue.trans (.of_eq rfl rfl rfl rfl rfl)

/-! ### Steps -/

/-- Nobody gets into the war, and new invitations are to players of the level and have yet to
run out. -/
structure Turn (c : Config) (w : World) (s t : Battlefield) : Prop where
  war : ∀ team, ∀ g ∈ t.playersInWar team, g ∈ s.playersInWar team
  new : ∀ team, ∀ e ∈ t.invitedPlayers team, e ∈ s.invitedPlayers team ∨
    e.2 = w.now + timeForAcceptInvite ∧ c.minLevel ≤ w.level e.1
  inv : Inv c s → Inv c t

theorem Turn.trans (h : Turn c w s t) (h' : Turn c w t u) : Turn c w s u := by
  refine ⟨fun team g hg => h.war team g (h'.war team g hg), fun team e he => ?_,
    fun hs => h'.inv (h.inv hs)⟩
  rcases h'.new team e he with hold | hnew
  · exact h.new team e hold
  · exact .inr hnew

theorem Turn.of_eq (hwar : t.playersInWar = s.playersInWar)
    (hinvited : t.invitedPlayers = s.invitedPlayers) : Turn c w s t := by
  refine ⟨fun team g hg => hwar ▸ hg, fun team e he => .inl (hinvited ▸ he), fun hs => ⟨?_, ?_⟩⟩
  · rw [hwar, hinvited]
    exact hs.places
  rw [hwar, hinvited]
  exact hs.apart

theorem Invites.turn (h : Invites c w s t) : Turn c w s t := by
  refine ⟨fun team g hg => h.war ▸ hg, fun team e he => ?_,
    fun hs => ⟨fun team => h.places team (hs.places team), fun team g hg hkey => ?_⟩⟩
  · exact (h.new team e he).imp_right fun hnew => ⟨hnew.1, hnew.2.2⟩
  rw [h.war] at hg
  obtain ⟨e, he, rfl⟩ := mem_map.mp hkey
  rcases h.new team e he with hold | hnew
  · exact hs.apart team e.1 hg (mem_map.mpr ⟨e, hold, rfl⟩)
  · exact hnew.2.1 hg

theorem Turn.of_fewer (hwar : ∀ team, (t.playersInWar team).Sublist (s.playersInWar team))
    (hinvited : ∀ team, (t.invitedPlayers team).Sublist (s.invitedPlayers team)) :
    Turn c w s t := by
  refine ⟨fun team g hg => (hwar team).subset hg, fun team e he => .inl ((hinvited team).subset he),
    fun hs => ⟨fun team => ?_, fun team g hg hkey => ?_⟩⟩
  · exact Nat.le_trans (Nat.add_le_add (hwar team).length_le (hinvited team).length_le)
      (hs.places team)
  · exact hs.apart team g ((hwar team).subset hg) (((hinvited team).map _).subset hkey)

theorem turn_enterZone (s : Battlefield) (guid : ℕ) :
    Turn c w s (s.handlePlayerEnterZone c w guid) := by
  simp only [handlePlayerEnterZone]
  split
  · exact .of_eq rfl rfl
  have hfirst : Turn c w s (if s.isActive then
        if s.hasVacancy c (w.team guid) then s.invitePlayerToWar c w guid
        else s.willKick w guid
      else s) := by
    split
    · split
      · rename_i hplace
        exact (invites_invite hplace).turn
      · exact .of_eq rfl rfl
    · exact .of_eq rfl rfl
  exact hfirst.trans (.of_eq rfl rfl)

theorem turn_leaveZone (s : Battlefield) (guid : ℕ) :
    Turn c w s (s.handlePlayerLeaveZone w guid) := by
  have hmodify {α : Type} (f : Team → List α) (k : List α → List α) (hk : ∀ l, (k l).Sublist l)
      (team team' : Team) : (modify f team k team').Sublist (f team') := by
    by_cases hteam : team' = team
    · rw [hteam, modify_self]
      exact hk _
    · rw [modify_of_ne _ _ hteam]
  simp only [handlePlayerLeaveZone]
  split
  · refine .of_fewer (fun team => ?_) (fun team => hmodify _ _ (fun l => filter_sublist) _ team)
    split
    · exact hmodify _ _ (fun l => filter_sublist) _ team
    · exact Sublist.refl _
  · exact .of_eq rfl rfl

theorem turn_endBattle (s : Battlefield) : Turn c w s (s.endBattle c) := by
  rw [endBattle]
  split
  · exact .of_fewer (fun team => nil_sublist _) fun team => Sublist.refl _
  · exact .of_eq rfl rfl

/-- **The start of a battle** empties the war and sends out invitations. -/
theorem startBattle_spec (h : s.isActive = false) :
    Invites c w { s with playersInWar := fun _ => [], timer := c.battleTime, isActive := true }
      (s.startBattle c w) := by
  rw [startBattle, h]
  exact (invites_zone _).trans (invites_queue _)

/-- **The timer of the battle**: invitations are kept. -/
theorem updateTimer_spec (s : Battlefield) (diff : ℕ) : Turn c w s (s.updateTimer c w diff) ∧
      (s.updateTimer c w diff).isActive = (if s.timer ≤ diff then !s.isActive else s.isActive) ∧
      (s.updateTimer c w diff).kickDontAcceptTimer = s.kickDontAcceptTimer ∧
      ∀ team, ∀ e ∈ s.invitedPlayers team, e ∈ (s.updateTimer c w diff).invitedPlayers team := by
  rw [updateTimer]
  split
  · cases hactive : s.isActive with
    | true =>
      rw [if_pos rfl]
      have hend : s.endBattle c = { s with
          isActive := false, startGrouping := false, playersInWar := fun _ => [],
          timer := c.noWarBattleTime } := if_pos hactive
      refine ⟨turn_endBattle s, ?_, ?_, fun team e he => ?_⟩
      · rw [hend]
        rfl
      · rw [hend]
      rw [hend]
      exact he
    | false =>
      have hstart := startBattle_spec (c := c) (w := w) hactive
      have hempty : Turn c w s
          { s with playersInWar := fun _ => [], timer := c.battleTime, isActive := true } :=
        .of_fewer (fun team => nil_sublist _) fun team => Sublist.refl _
      exact ⟨hempty.trans hstart.turn, hstart.isActive, hstart.kickTimer, hstart.old⟩
  · exact ⟨.of_eq rfl rfl, rfl, rfl, fun _ _ he => he⟩

/-- **The passes of a battle** send out invitations. -/
theorem updateWar_spec (s : Battlefield) (diff : ℕ) : Turn c w s (s.updateWar c w diff) ∧
      ∀ team, ∀ e ∈ s.invitedPlayers team, e ∈ (s.updateWar c w diff).invitedPlayers team := by
  simp only [updateWar]
  split
  · have hzone := invites_zone (c := c) (w := w) { s with kickAfkPlayersTimer :=
          if s.kickAfkPlayersTimer ≤ diff then 1000 else s.kickAfkPlayersTimer - diff }
    have hbefore : Turn c w s { s with kickAfkPlayersTimer :=
        if s.kickAfkPlayersTimer ≤ diff then 1000 else s.kickAfkPlayersTimer - diff } :=
      .of_eq rfl rfl
    exact ⟨(hbefore.trans hzone.turn).trans (.of_eq rfl rfl), hzone.old⟩
  · exact ⟨.of_eq rfl rfl, fun _ _ he => he⟩

theorem startGrouping_spec (s : Battlefield) :
    ∃ startGrouping, (if !s.isActive && !s.startGrouping && s.timer ≤ c.startGroupingTimer then
      { s with startGrouping := true } else s) = { s with startGrouping := startGrouping } := by
  split
  · exact ⟨true, rfl⟩
  · exact ⟨s.startGrouping, rfl⟩

/-- **An update** keeps the invitations and sends out new ones. -/
theorem update_spec (s : Battlefield) (diff : ℕ) : Turn c w s (s.update c w diff) ∧
      ∀ team, ∀ e ∈ s.invitedPlayers team, e ∈ (s.update c w diff).invitedPlayers team := by
  obtain ⟨hturn, -, -, hold⟩ := updateTimer_spec (c := c) (w := w) s diff
  obtain ⟨startGrouping, hgroup⟩ := startGrouping_spec (c := c) (s.updateTimer c w diff)
  have hthen : Turn c w s { s.updateTimer c w diff with startGrouping := startGrouping } :=
    hturn.trans (.of_eq rfl rfl)
  simp only [Battlefield.update]
  rw [hgroup]
  split
  · have hwar := updateWar_spec (c := c) (w := w)
      { s.updateTimer c w diff with startGrouping := startGrouping } diff
    exact ⟨hthen.trans hwar.1, fun team e he => hwar.2 team e (hold team e he)⟩
  · exact ⟨hthen, hold⟩

/-! ### The whole roster -/

variable {request : Request}

theorem Turn.right (h : Turn c w s t) (hs : Inv c s)
    (hgone : kickPass s request = true → ∀ team, ∀ e ∈ t.invitedPlayers team, w.now < e.2) :
    RosterRight c s (w, request) t where
  places _ team := by
    have hplaces := (h.inv hs).places team
    exact Nat.le_trans (Nat.add_le_add_left countP_le_length _) hplaces
  entered team g hg := .inl (h.war team g hg)
  level team g hg := by
    obtain ⟨e, he, rfl⟩ := mem_map.mp hg
    rcases h.new team e he with hold | hnew
    · exact .inl (mem_map.mpr ⟨e, hold, rfl⟩)
    · exact .inr hnew.2
  apart := (h.inv hs).apart
  gone := hgone

/-- **Who is invited** gets into the war and gives up the invitation. -/
theorem accept_inv (hs : Inv c s)
    (hasked : guid ∈ s.playersInWar (w.team guid) ∨ guid ∈ keys (s.invitedPlayers (w.team guid))) :
    Inv c (s.playerAcceptInviteToWar w guid) := by
  rw [playerAcceptInviteToWar]
  split
  · refine ⟨fun team => ?_, fun team g hg => ?_⟩
    · have hplaces := hs.places team
      dsimp only
      by_cases hteam : team = w.team guid
      · subst hteam
        rw [modify_self, modify_self, length_insertGuid]
        by_cases hwar : guid ∈ s.playersInWar (w.team guid)
        · have hle := length_eraseKey_le (s.invitedPlayers (w.team guid)) guid
          rw [if_pos hwar]
          omega
        have hlt := length_eraseKey_lt (hasked.resolve_left hwar)
        rw [if_neg hwar]
        omega
      · rwa [modify_of_ne _ _ hteam, modify_of_ne _ _ hteam]
    dsimp only at hg ⊢
    by_cases hteam : team = w.team guid
    · subst hteam
      rw [modify_self, mem_insertGuid] at hg
      rw [modify_self, mem_keys_eraseKey]
      rintro ⟨hkey, hne⟩
      exact hs.apart _ g (hg.resolve_left hne) hkey
    rw [modify_of_ne _ _ hteam] at hg ⊢
    exact hs.apart team g hg
  · exact hs

/-- **An answer** is right just when the player has been asked. -/
theorem accept_right_iff (hpass : kickPass s request = false) (hs : Inv c s) :
    RosterRight c s (w, request) (s.playerAcceptInviteToWar w guid) ↔
      (s.isActive = true ∧ w.isInWorld guid = true →
        guid ∈ s.playersInWar (w.team guid) ∨ guid ∈ keys (s.invitedPlayers (w.team guid))) := by
  have hgone {α : Prop} (h : kickPass s request = true) : α := absurd h (hpass ▸ Bool.false_ne_true)
  constructor
  · intro hright hactive
    refine hright.entered (w.team guid) guid ?_
    rw [playerAcceptInviteToWar, if_pos (Bool.and_eq_true_iff.mpr hactive)]
    dsimp only
    rw [modify_self, mem_insertGuid]
    exact .inl rfl
  intro hasked
  by_cases hactive : s.isActive = true ∧ w.isInWorld guid = true
  · have hinv := accept_inv (w := w) hs (hasked hactive)
    rw [playerAcceptInviteToWar, if_pos (Bool.and_eq_true_iff.mpr hactive)] at hinv ⊢
    refine ⟨fun _ team => ?_, fun team g hg => ?_, fun team g hg => .inl ?_, hinv.apart, hgone⟩
    · exact Nat.le_trans (Nat.add_le_add_left countP_le_length _) (hinv.places team)
    · dsimp only at hg
      by_cases hteam : team = w.team guid
      · subst hteam
        rw [modify_self, mem_insertGuid] at hg
        rcases hg with rfl | hold
        · exact hasked hactive
        · exact .inl hold
      rw [modify_of_ne _ _ hteam] at hg
      exact .inl hg
    dsimp only at hg
    by_cases hteam : team = w.team guid
    · subst hteam
      rw [modify_self, mem_keys_eraseKey] at hg
      exact hg.1
    · rwa [modify_of_ne _ _ hteam] at hg
  rw [playerAcceptInviteToWar, if_neg (fun h => hactive (Bool.and_eq_true_iff.mp h))]
  exact (Turn.of_eq rfl rfl).right hs hgone

/-- **A step keeps the roster right** just when it asks for invitations. -/
theorem step_right_iff (hs : Inv c s) (r : World × Request) :
    RosterRight c s r (step c s r) ↔ Asked c s r := by
  obtain ⟨w, request⟩ := r
  cases request with
  | enterZone guid =>
    exact iff_of_true ((turn_enterZone s guid).right hs nofun) trivial
  | leaveZone guid =>
    exact iff_of_true ((turn_leaveZone s guid).right hs nofun) trivial
  | queueInviteResponse guid battlefield accepted | exitRequest guid battlefield =>
    refine iff_of_true (Turn.right ?_ hs nofun) trivial
    rw [step]
    split <;> exact .of_eq rfl rfl
  | entryInviteResponse guid battlefield accepted =>
    rw [step, Asked]
    by_cases hthis : battlefield = c.guid ∧ accepted = true
    · rw [if_pos hthis, accept_right_iff rfl hs]
      constructor
      · exact fun h hasked => h hasked.2.2
      · exact fun h hactive => h ⟨hthis.1, hthis.2, hactive⟩
    rw [if_neg hthis]
    refine iff_of_true ((Turn.of_eq rfl rfl).right hs nofun) ?_
    exact fun h => absurd ⟨h.1, h.2.1⟩ hthis
  | update diff =>
    obtain ⟨hturn, hold⟩ := update_spec (c := c) (w := w) s diff
    constructor
    · exact fun hright hpass team e he => hright.gone hpass team e (hold team e he)
    intro hasked
    refine hturn.right hs fun hpass team e he => ?_
    rcases hturn.new team e he with hbefore | ⟨htime, -⟩
    · exact hasked hpass team e hbefore
    rw [htime]
    exact Nat.lt_add_of_pos_right (by decide)
  | endBattle =>
    exact iff_of_true ((turn_endBattle s).right hs nofun) trivial
  | setTimer timer =>
    have hturn : Turn c w s { s with timer := timer } := .of_eq rfl rfl
    exact iff_of_true (hturn.right hs nofun) trivial

theorem step_inv (hs : Inv c s) {r : World × Request} (hasked : Asked c s r) :
    Inv c (step c s r) := by
  obtain ⟨w, request⟩ := r
  cases request with
  | enterZone guid => exact (turn_enterZone (w := w) s guid).inv hs
  | leaveZone guid => exact (turn_leaveZone (w := w) s guid).inv hs
  | queueInviteResponse guid battlefield accepted | exitRequest guid battlefield =>
    rw [step]
    split
    · exact ⟨hs.places, hs.apart⟩
    · exact hs
  | entryInviteResponse guid battlefield accepted =>
    rw [step]
    split
    · rename_i hthis
      by_cases hactive : s.isActive = true ∧ w.isInWorld guid = true
      · exact accept_inv hs (hasked ⟨hthis.1, hthis.2, hactive⟩)
      rw [playerAcceptInviteToWar, if_neg (fun h => hactive (Bool.and_eq_true_iff.mp h))]
      exact hs
    · exact hs
  | update diff => exact (update_spec (w := w) s diff).1.inv hs
  | endBattle => exact (turn_endBattle (w := w) s).inv hs
  | setTimer timer => exact ⟨hs.places, hs.apart⟩

/-- **The roster is right exactly in the runs that ask for invitations**: nobody gets into the war
uninvited, and no pass finds an invitation that has run out. -/
theorem roster_right_iff (c : Config) (timer : ℕ) (rs : List (World × Request)) :
    Along (step c) (fun s r => RosterRight c s r (step c s r)) (.initial timer) rs ↔
      Along (step c) (Asked c) (.initial timer) rs := by
  have hempty : Inv c (.initial timer) := ⟨fun _ => Nat.zero_le _, fun _ _ hg => nomatch hg⟩
  refine Along.congr_of_invariant (I := Inv c) (fun s r hs => step_right_iff hs r) ?_ hempty
  exact fun s r hs hright => step_inv hs ((step_right_iff hs r).mp hright)

/-- Everybody has the level and is in the world, on one side. -/
def elsewhere (now level : ℕ) : World where
  now := now
  team := fun _ => .horde
  level := fun _ => level
  findPlayer := fun _ => true
  isInWorld := fun _ => true
  isInFlight := fun _ => false
  inBattleground := fun _ => false

def wintergrasp : Config where
  guid := 1
  maxPlayer := 80
  minLevel := 77
  battleTime := 1800000
  noWarBattleTime := 9000000
  startGroupingTimer := 900000

/-- **Nobody asks for the invitation**: a player who was never invited, of the first level and
outside of the zone, accepts.  **And no pass takes one back**: a player of the queue lets his run
out, outside of the zone. -/
theorem uninvited_player_in_war : (¬ Along (step wintergrasp)
      (fun s r => RosterRight wintergrasp s r (step wintergrasp s r)) (.initial 0)
      [(elsewhere 100 1, .update 1), (elsewhere 100 1, .entryInviteResponse 7 1 true)]) ∧
    ¬ Along (step wintergrasp)
      (fun s r => RosterRight wintergrasp s r (step wintergrasp s r)) (.initial 0)
      [(elsewhere 100 80, .queueInviteResponse 8 1 true), (elsewhere 100 80, .update 1),
        (elsewhere 200 80, .update 1000)] := by
  constructor
  · intro h
    have hentered := h.2.1.entered .horde 7 (by decide)
    revert hentered
    decide
  intro h
  have hgone := h.2.2.1.gone (by decide) .horde (8, 120) (by decide)
  revert hgone
  decide

end ZerosCore.Battlefields
