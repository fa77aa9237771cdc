/-
# The guild finder and its tables

`GuildFinderMgr` (`src/server/game/Guilds/GuildFinderMgr.cpp`) keeps the settings of the guilds that
look for members and the requests of the players, and writes each change to a table of its own.

The requests always come back.  The settings do not: `LoadGuildSettings` asks for one row of the
join with the members, and `DeleteGuild` deletes a row of settings once for each request, so never
for a guild without requests.  `restored_iff` says which states are restored nevertheless.
-/

import ZerosCore.Lib.Keyed

namespace ZerosCore.GuildFinder

open Lib List Keyed

inductive TeamId
  | alliance | horde
deriving DecidableEq

/-- The columns of `guild_finder_guild_settings`, which are the settings but for the team. -/
structure SettingsRow where
  guildId : ℕ
  availability : UInt8
  classRoles : UInt8
  interests : UInt8
  level : UInt8
  listed : Bool
  comment : String
deriving DecidableEq

structure LFGuildSettings extends SettingsRow where
  team : TeamId
deriving DecidableEq

structure MembershipRequest where
  guildId : ℕ
  playerGUID : ℕ
  availability : UInt8
  classRoles : UInt8
  interests : UInt8
  comment : String
  time : ℕ

/-- The key of `guild_finder_applicant`. -/
def MembershipRequest.key (r : MembershipRequest) : ℕ × ℕ := (r.guildId, r.playerGUID)

abbrev MembershipRequestStore : Type := Table (Prod.fst : ℕ × List MembershipRequest → ℕ)

/-- The manager, and the two tables. -/
structure Finder where
  guildSettings : Table fun m : LFGuildSettings => m.guildId
  membershipRequests : MembershipRequestStore
  settingsRows : Table SettingsRow.guildId
  applicantRows : Table MembershipRequest.key

namespace Finder

variable {s : Finder} {r q : MembershipRequest} {m : LFGuildSettings} {g player : ℕ}

def empty : Finder := ⟨.empty _, .empty _, .empty _, .empty _⟩

/-- `_membershipRequests[guildId]`. -/
def requestsOf (s : Finder) (g : ℕ) : List MembershipRequest :=
  ((s.membershipRequests.get? g).map Prod.snd).getD []

def hasRequest (s : Finder) (player g : ℕ) : Bool :=
  (s.requestsOf g).any (·.playerGUID = player)

def setGuildSettings (s : Finder) (m : LFGuildSettings) : Finder :=
  { s with
    guildSettings := s.guildSettings.put m
    settingsRows := s.settingsRows.put m.toSettingsRow }

def addMembershipRequest (s : Finder) (r : MembershipRequest) : Finder :=
  { s with
    membershipRequests := s.membershipRequests.put (r.guildId, s.requestsOf r.guildId ++ [r])
    applicantRows := s.applicantRows.put r }

/-- The first request of the player to the guild goes, if there is one. -/
def removeMembershipRequest (s : Finder) (player g : ℕ) : Finder :=
  match (s.requestsOf g).find? (·.playerGUID = player) with
  | none => s
  | some r =>
    { s with
      membershipRequests :=
        s.membershipRequests.put (g, (s.requestsOf g).eraseP (·.playerGUID = player))
      applicantRows := s.applicantRows.erase r.key }

/-- The loop over the guilds of the map, with the same body. -/
def removeAllMembershipRequestsFromPlayer (s : Finder) (player : ℕ) : Finder :=
  (s.membershipRequests.rows.map Prod.fst).foldl (fun s g => s.removeMembershipRequest player g) s

/-- The settings are deleted in the loop over the requests. -/
def deleteGuild (s : Finder) (g : ℕ) : Finder :=
  { guildSettings := s.guildSettings.erase g, membershipRequests := s.membershipRequests.erase g
    settingsRows := (s.requestsOf g).foldl (fun t r => t.erase r.guildId) s.settingsRows
    applicantRows := (s.requestsOf g).foldl (fun t r => t.erase r.key) s.applicantRows }

inductive Request
  | setGuildSettings (m : LFGuildSettings)
  | addMembershipRequest (r : MembershipRequest)
  | removeMembershipRequest (player g : ℕ)
  | removeAll (player : ℕ)
  | deleteGuild (g : ℕ)

/-- A request is added only when there is none of the player to the guild. -/
def step (s : Finder) : Request → Finder
  | .setGuildSettings m => s.setGuildSettings m
  | .addMembershipRequest r =>
    if s.hasRequest r.playerGUID r.guildId then s else s.addMembershipRequest r
  | .removeMembershipRequest player g => s.removeMembershipRequest player g
  | .removeAll player => s.removeAllMembershipRequestsFromPlayer player
  | .deleteGuild g => s.deleteGuild g

/-! ### Loading -/

/-- What the query joins with: the races of the members of a guild, none for a member without a
character, and the team of a race. -/
structure Members where
  races : ℕ → List (Option ℕ)
  team : Option ℕ → TeamId

def joinRow (x : Members) (row : SettingsRow) : List (SettingsRow × Option ℕ) :=
  match x.races row.guildId with
  | [] => [(row, none)]
  | races => races.map fun race => (row, race)

/-- `LoadGuildSettings`: the query asks for one row of what is joined. -/
def loadGuildSettings (x : Members) (result : List (SettingsRow × Option ℕ)) :
    Table fun m : LFGuildSettings => m.guildId :=
  (result.take 1).foldl (fun t row => t.put ⟨row.1, x.team row.2⟩) (.empty _)

def loadMembershipRequests (result : List MembershipRequest) : MembershipRequestStore :=
  result.foldl (fun t r => t.put (r.guildId, ((t.get? r.guildId).map Prod.snd).getD [] ++ [r]))
    (.empty _)

/-- **What is in memory comes back**, in whatever order the tables give their rows. -/
def Restored (x : Members) (s : Finder) : Prop :=
  (∀ result, result.Perm (s.settingsRows.rows.flatMap (joinRow x)) →
    ∀ g, (loadGuildSettings x result).get? g = s.guildSettings.get? g) ∧
  ∀ result, result.Perm s.applicantRows.rows → ∀ g,
    (((loadMembershipRequests result).get? g).map Prod.snd).getD [] ~ s.requestsOf g

/-- One guild at most has a row, it has not been deleted, and its members are of its team. -/
structure OneGuild (x : Members) (s : Finder) : Prop where
  one : s.settingsRows.rows.length ≤ 1
  listed : ∀ row ∈ s.settingsRows.rows, ∃ m ∈ s.guildSettings.rows, m.guildId = row.guildId ∧
    ∀ joined ∈ joinRow x row, x.team joined.2 = m.team

/-- What a run keeps: every guild in memory has its row, and the requests are those of the table. -/
structure Kept (s : Finder) : Prop where
  settings : ∀ m ∈ s.guildSettings.rows, m.toSettingsRow ∈ s.settingsRows.rows
  guild : ∀ g, ∀ r ∈ s.requestsOf g, r.guildId = g
  players : ∀ g, ((s.requestsOf g).map MembershipRequest.playerGUID).Nodup
  rows : ∀ r, r ∈ s.applicantRows.rows ↔ r ∈ s.requestsOf r.guildId

/-! ### What a run keeps -/

theorem requestsOf_put {s' : Finder} {l : List MembershipRequest}
    (hput : s'.membershipRequests = s.membershipRequests.put (g, l)) (j : ℕ) :
    s'.requestsOf j = if j = g then l else s.requestsOf j := by
  unfold requestsOf
  rw [hput, Table.get?_put]
  split_ifs <;> rfl

theorem Kept.set (h : s.Kept) (m : LFGuildSettings) : (s.setGuildSettings m).Kept := by
  refine { h with settings := fun m' hm' => ?_ }
  obtain rfl | ⟨hm', hne⟩ := Table.mem_rows_put.mp hm'
  · exact Table.mem_rows_put.mpr (.inl rfl)
  · exact Table.mem_rows_put.mpr (.inr ⟨h.settings m' hm', hne⟩)

theorem Kept.add (h : s.Kept) (hnew : s.hasRequest r.playerGUID r.guildId = false) :
    (s.addMembershipRequest r).Kept := by
  have hof : ∀ j, (s.addMembershipRequest r).requestsOf j =
      if j = r.guildId then s.requestsOf r.guildId ++ [r] else s.requestsOf j := requestsOf_put rfl
  have hother : ∀ q ∈ s.requestsOf r.guildId, q.playerGUID ≠ r.playerGUID := by
    simpa [hasRequest] using hnew
  refine ⟨h.settings, fun j q hq => ?_, fun j => ?_, fun q => ?_⟩
  · rw [hof] at hq
    split_ifs at hq with hj
    · obtain hq | rfl := (mem_append.trans (or_congr_right mem_singleton)).mp hq
      · exact (h.guild _ q hq).trans hj.symm
      · exact hj.symm
    · exact h.guild j q hq
  · rw [hof]
    split_ifs
    · rw [map_append]
      refine (h.players r.guildId).append (nodup_singleton _) ?_
      simpa using hother
    · exact h.players j
  rw [hof, addMembershipRequest, Table.mem_rows_put, h.rows]
  have hkey : q.key = r.key ↔ q.guildId = r.guildId ∧ q.playerGUID = r.playerGUID :=
    Prod.mk.injEq _ _ _ _ |>.to_iff
  grind

theorem eraseP_eq_filter {l : List MembershipRequest}
    (h : (l.map MembershipRequest.playerGUID).Nodup) (player : ℕ) :
    l.eraseP (·.playerGUID = player) = l.filter (·.playerGUID ≠ player) := by
  induction l with
  | nil => rfl
  | cons r l ih =>
    obtain ⟨hr, h⟩ := nodup_cons.mp h
    by_cases hp : r.playerGUID = player
    · have hothers : ∀ q ∈ l, q.playerGUID ≠ player := fun q hq heq =>
        hr (mem_map.mpr ⟨q, hq, heq.trans hp.symm⟩)
      rw [eraseP_cons_of_pos (by simpa using hp), filter_cons_of_neg (by simpa using hp),
        filter_eq_self.mpr fun q hq => decide_eq_true (hothers q hq)]
    · simp [hp, ih h]

theorem Kept.remove (h : s.Kept) (player g : ℕ) : (s.removeMembershipRequest player g).Kept := by
  unfold removeMembershipRequest
  split
  · exact h
  rename_i r hfind
  have hr := mem_of_find?_eq_some hfind
  have hguild := h.guild g r hr
  have hplayer : r.playerGUID = player := by simpa using find?_some hfind
  rw [eraseP_eq_filter (h.players g)]
  generalize hs' : Finder.mk _ _ _ _ = s'
  have hof : ∀ j, s'.requestsOf j =
      if j = g then (s.requestsOf g).filter (·.playerGUID ≠ player) else s.requestsOf j :=
    requestsOf_put (hs' ▸ rfl)
  refine ⟨hs' ▸ h.settings, fun j q hq => ?_, fun j => ?_, fun q => ?_⟩
  · rw [hof] at hq
    split_ifs at hq with hj
    · exact hj ▸ h.guild g q (mem_filter.mp hq).1
    · exact h.guild j q hq
  · rw [hof]
    split_ifs
    · exact (h.players g).sublist (filter_sublist.map _)
    · exact h.players j
  rw [hof, ← hs', Table.mem_rows_erase, h.rows]
  have hkey : q.key = r.key ↔ q.guildId = g ∧ q.playerGUID = player := by
    rw [MembershipRequest.key, MembershipRequest.key, Prod.mk.injEq, hguild, hplayer]
  grind

theorem Kept.removeAll (h : s.Kept) (player : ℕ) :
    (s.removeAllMembershipRequestsFromPlayer player).Kept := by
  unfold removeAllMembershipRequestsFromPlayer
  generalize s.membershipRequests.rows.map Prod.fst = guilds
  induction guilds generalizing s with
  | nil => exact h
  | cons g guilds ih => exact ih (h.remove player g)

theorem mem_foldl_erase {α κ : Type} [DecidableEq κ] {key : α → κ} {a : α}
    (l : List MembershipRequest) (f : MembershipRequest → κ) (t : Table key) :
    a ∈ (l.foldl (fun t r => t.erase (f r)) t).rows ↔ a ∈ t.rows ∧ ∀ r ∈ l, key a ≠ f r := by
  induction l generalizing t with
  | nil => simp
  | cons r l ih => rw [foldl_cons, ih, Table.mem_rows_erase, forall_mem_cons, and_assoc]

theorem Kept.delete (h : s.Kept) (g : ℕ) : (s.deleteGuild g).Kept := by
  have hof : ∀ j, (s.deleteGuild g).requestsOf j = if j = g then [] else s.requestsOf j := by
    intro j
    unfold requestsOf deleteGuild
    rw [Table.get?_erase]
    split_ifs <;> rfl
  refine ⟨fun m hm => ?_, fun j q hq => ?_, fun j => ?_, fun q => ?_⟩
  · obtain ⟨hm, hne⟩ := Table.mem_rows_erase.mp hm
    exact (mem_foldl_erase _ _ _).mpr ⟨h.settings m hm, fun r hr => h.guild g r hr ▸ hne⟩
  · grind [h.guild j q]
  · rw [hof]
    split_ifs
    · exact nodup_nil
    · exact h.players j
  rw [hof, deleteGuild, mem_foldl_erase, h.rows]
  constructor
  · rintro ⟨hq, hne⟩
    split_ifs with heq
    · exact absurd rfl (hne q (heq ▸ hq))
    · exact hq
  intro hq
  split_ifs at hq with heq
  · cases hq
  · exact ⟨hq, fun r hr hkey => heq ((Prod.mk.inj hkey).1.trans (h.guild g r hr))⟩

/-- **Every request** keeps the finder. -/
theorem Kept.step (h : s.Kept) (op : Request) : (s.step op).Kept := by
  cases op with
  | setGuildSettings m => exact h.set m
  | addMembershipRequest r =>
    unfold Finder.step
    dsimp only
    split_ifs with hhas
    · exact h
    · exact h.add (Bool.eq_false_iff.mpr hhas)
  | removeMembershipRequest player g => exact h.remove player g
  | removeAll player => exact h.removeAll player
  | deleteGuild g => exact h.delete g

/-- **Every run** from an empty finder does. -/
theorem kept_run (ops : List Request) : (ops.foldl step empty).Kept := by
  suffices ∀ s : Finder, s.Kept → (ops.foldl step s).Kept from
    this _ ⟨by simp [empty, Table.empty], by simp [empty, requestsOf, Table.empty, Table.get?],
      by simp [empty, requestsOf, Table.empty, Table.get?],
      by simp [empty, requestsOf, Table.empty, Table.get?]⟩
  induction ops with
  | nil => exact fun s h => h
  | cons op ops ih => exact fun s h => ih _ (h.step op)

/-! ### What comes back -/

theorem load_requests (result : List MembershipRequest) (g : ℕ) :
    (((loadMembershipRequests result).get? g).map Prod.snd).getD [] =
      result.filter (·.guildId = g) := by
  suffices ∀ t : MembershipRequestStore, ((((result.foldl (fun t r => t.put (r.guildId,
      ((t.get? r.guildId).map Prod.snd).getD [] ++ [r])) t)).get? g).map Prod.snd).getD [] =
        ((t.get? g).map Prod.snd).getD [] ++ result.filter (·.guildId = g) from this _
  induction result with
  | nil => simp
  | cons r result ih =>
    intro t
    rw [foldl_cons, ih, Table.get?_put]
    by_cases hg : g = r.guildId
    · simp [hg]
    · simp [hg, Ne.symm hg]

/-- **The requests always come back.** -/
theorem Kept.requests (h : s.Kept) {result : List MembershipRequest}
    (hresult : result.Perm s.applicantRows.rows) (g : ℕ) :
    (((loadMembershipRequests result).get? g).map Prod.snd).getD [] ~ s.requestsOf g := by
  rw [load_requests]
  have hnodup : result.Nodup := hresult.nodup_iff.mpr s.applicantRows.distinct.of_map
  refine (perm_ext_iff_of_nodup (hnodup.filter _) (h.players g).of_map).mpr fun r => ?_
  rw [mem_filter, hresult.mem_iff, h.rows, decide_eq_true_eq]
  have := h.guild g r
  grind

theorem load_settings (x : Members) (joined : SettingsRow × Option ℕ)
    (result : List (SettingsRow × Option ℕ)) (g : ℕ) :
    (loadGuildSettings x (joined :: result)).get? g =
      if g = joined.1.guildId then some ⟨joined.1, x.team joined.2⟩ else none := by
  unfold loadGuildSettings
  simp only [take_succ_cons, take_zero, foldl_cons, foldl_nil, Table.get?_put]
  rfl

theorem joinRow_spec (x : Members) (row : SettingsRow) :
    joinRow x row ≠ [] ∧ ∀ joined ∈ joinRow x row, joined.1 = row := by
  unfold joinRow
  split
  · simp
  rename_i hne
  simpa using hne

/-- **The settings come back just when no more than one guild is listed**, which has not been
deleted and whose first member is of its team. -/
theorem restored_iff (x : Members) (ops : List Request) :
    Restored x (ops.foldl step empty) ↔ OneGuild x (ops.foldl step empty) := by
  have h := kept_run ops
  generalize ops.foldl step empty = s at h
  constructor
  · rintro ⟨hsettings, -⟩
    -- any row that is joined can be the one that the query gives
    have hany : ∀ row ∈ s.settingsRows.rows, ∀ joined ∈ joinRow x row, ∀ g,
        s.guildSettings.get? g = if g = row.guildId then some ⟨row, x.team joined.2⟩ else none := by
      intro row hrow joined hjoined g
      have hmem := mem_flatMap.mpr ⟨row, hrow, hjoined⟩
      rw [← hsettings _ (perm_cons_erase hmem).symm, load_settings, (joinRow_spec x row).2 _ hjoined]
    refine ⟨?_, fun row hrow => ?_⟩
    · rcases hrows : s.settingsRows.rows with _ | ⟨a, _ | ⟨b, l⟩⟩
      · exact Nat.zero_le 1
      · exact Nat.le_refl 1
      have hdistinct := s.settingsRows.distinct
      rw [hrows, distinct_cons] at hdistinct
      obtain ⟨j, hj⟩ := exists_mem_of_ne_nil _ (joinRow_spec x a).1
      obtain ⟨k, hk⟩ := exists_mem_of_ne_nil _ (joinRow_spec x b).1
      have ha := hany a (hrows ▸ mem_cons_self) j hj a.guildId
      have hb := hany b (hrows ▸ mem_cons_of_mem a mem_cons_self) k hk a.guildId
      rw [if_neg (hdistinct.1 b mem_cons_self).symm] at hb
      rw [if_pos rfl, hb] at ha
      cases ha
    obtain ⟨j, hj⟩ := exists_mem_of_ne_nil _ (joinRow_spec x row).1
    have hget := hany row hrow j hj row.guildId
    rw [if_pos rfl] at hget
    refine ⟨_, (Table.get?_eq_some.mp hget).1, rfl, fun k hk => ?_⟩
    have hget' := hany row hrow k hk row.guildId
    rw [if_pos rfl, hget] at hget'
    exact (LFGuildSettings.mk.inj (Option.some.inj hget')).2.symm
  rintro ⟨hone, hlisted⟩
  refine ⟨fun result hresult g => ?_, fun result hresult g => h.requests hresult g⟩
  rcases hrows : s.settingsRows.rows with _ | ⟨row, _ | ⟨b, l⟩⟩
  · rw [hrows, flatMap_nil] at hresult
    rw [hresult.eq_nil]
    refine (Table.get?_eq_none.mpr fun m hm => ?_).symm
    exact absurd (hrows ▸ h.settings m hm) not_mem_nil
  · rw [hrows, flatMap_singleton] at hresult
    rw [hrows] at hlisted
    have hrow : ∀ m ∈ s.guildSettings.rows, m.toSettingsRow = row := fun m hm =>
      mem_singleton.mp (hrows ▸ h.settings m hm)
    obtain ⟨m, hm, hguild, hteam⟩ := hlisted row mem_cons_self
    obtain ⟨joined, rest, rfl⟩ := exists_cons_of_ne_nil fun hnil : result = [] =>
      (joinRow_spec x row).1 ((hnil ▸ hresult).symm.eq_nil)
    have hjoined := hresult.mem_iff.mp mem_cons_self
    rw [load_settings, (joinRow_spec x row).2 _ hjoined, hteam _ hjoined]
    split_ifs with hg
    · rw [Table.get?_eq_some.mpr ⟨hm, hguild.trans hg.symm⟩, ← hrow m hm]
    refine (Table.get?_eq_none.mpr fun m' hm' heq => hg ?_).symm
    rw [← heq, hrow m' hm']
  rw [hrows] at hone
  simp at hone

/-- Two guilds are listed, and the query gives one. -/
theorem two_guilds : ¬ Restored ⟨fun _ => [], fun _ => .alliance⟩
    ([.setGuildSettings ⟨⟨1, 0, 0, 0, 0, true, ""⟩, .alliance⟩,
      .setGuildSettings ⟨⟨2, 0, 0, 0, 0, true, ""⟩, .alliance⟩].foldl step empty) := by
  intro h
  exact absurd (h.1 _ (.refl _) 1) (by decide)

end Finder
end ZerosCore.GuildFinder
