/-
# Loading the arena teams

`ArenaTeamMgr::LoadArenaTeams` of `src/server/game/Battlegrounds/ArenaTeamMgr.cpp` and
`LoadArenaTeamFromDB`, `LoadMembersFromDB`, `DelMember` and `Disband` of
`src/server/game/Battlegrounds/ArenaTeam.cpp`.

The teams and the members of all teams are two results in the order of the team ids.  Each team
takes rows from the second one, up to the first row with a higher id, and leaves the cursor there.
`load_merges` says that every team gets the rows under its own id, and which teams are kept.  A
member is only deleted from a team of a known type: `UpdateCharArenaTeam` asserts that the slot of
the type is one of three, so a team of another type may end the server (`none`).

The cursor of a result is the list of the rows from the current one on; `Fetch` gives a null pointer
where it is empty.  No player is in the world during the load.  The updates of the database and of
the character information are left out.
-/

import Mathlib.Data.List.Basic
import Mathlib.Data.Nat.Basic

namespace ZerosCore.ArenaTeams

open List Option

/-- A row of `arena_team`. -/
structure ArenaTeamRow where
  arenaTeamId : ℕ
  name : String
  captainGuid : ℕ
  type : ℕ
  backgroundColor : ℕ
  emblemStyle : ℕ
  emblemColor : ℕ
  borderStyle : ℕ
  borderColor : ℕ
  rating : ℕ
  weekGames : ℕ
  weekWins : ℕ
  seasonGames : ℕ
  seasonWins : ℕ
  rank : ℕ

/-- A row of the result with the members; `name` and `class` are of the character, and the name is
empty where there is none. -/
structure MemberRow where
  arenaTeamId : ℕ
  guid : ℕ
  weekGames : ℕ
  weekWins : ℕ
  seasonGames : ℕ
  seasonWins : ℕ
  name : String
  class_ : ℕ
  personalRating : ℕ
  matchMakerRating : ℕ

structure ArenaTeamMember where
  guid : ℕ
  name : String
  class_ : ℕ
  weekGames : ℕ
  weekWins : ℕ
  seasonGames : ℕ
  seasonWins : ℕ
  personalRating : ℕ
  matchMakerRating : ℕ

structure ArenaTeamStats where
  rating : ℕ
  weekGames : ℕ
  weekWins : ℕ
  seasonGames : ℕ
  seasonWins : ℕ
  rank : ℕ

structure ArenaTeam where
  teamId : ℕ
  teamName : String
  captainGuid : ℕ
  type : ℕ
  backgroundColor : ℕ
  emblemStyle : ℕ
  emblemColor : ℕ
  borderStyle : ℕ
  borderColor : ℕ
  stats : ArenaTeamStats
  members : List ArenaTeamMember

abbrev ArenaTeamStore := ℕ → Option ArenaTeam

/-- `LoadArenaTeamFromDB`: there are no members yet. -/
def loadArenaTeamFromDB (fields : ArenaTeamRow) : ArenaTeam where
  teamId := fields.arenaTeamId
  teamName := fields.name
  captainGuid := fields.captainGuid
  type := fields.type
  backgroundColor := fields.backgroundColor
  emblemStyle := fields.emblemStyle
  emblemColor := fields.emblemColor
  borderStyle := fields.borderStyle
  borderColor := fields.borderColor
  stats := {
    rating := fields.rating
    weekGames := fields.weekGames
    weekWins := fields.weekWins
    seasonGames := fields.seasonGames
    seasonWins := fields.seasonWins
    rank := fields.rank }
  members := []

def newMember (fields : MemberRow) : ArenaTeamMember where
  guid := fields.guid
  weekGames := fields.weekGames
  weekWins := fields.weekWins
  seasonGames := fields.seasonGames
  seasonWins := fields.seasonWins
  name := fields.name
  class_ := fields.class_
  personalRating := fields.personalRating
  matchMakerRating := if fields.matchMakerRating > 0 then fields.matchMakerRating else 1500

def getSlotByType (type : ℕ) : ℕ :=
  match type with
  | 2 => 0
  | 3 => 1
  -- `ARENA_TEAM_5v5`
  | 1 => 2
  | _ => 0xFF

namespace ArenaTeam

/-- `DelMember`, `none` where the assertion of `UpdateCharArenaTeam` fails. -/
def delMember (team : ArenaTeam) (guid : ℕ) : Option ArenaTeam :=
  if getSlotByType team.type < 3 then
    some { team with members := team.members.eraseP fun member => member.guid = guid }
  else none

/-- The loop of `LoadMembersFromDB`: the team, whether the captain has been seen, and the cursor. -/
def loadMembers (team : ArenaTeam) (captainPresentInTeam : Bool) :
    List MemberRow → Option (ArenaTeam × Bool × List MemberRow)
  | [] => some (team, captainPresentInTeam, [])
  | fields :: result =>
    if fields.arenaTeamId > team.teamId then
      some (team, captainPresentInTeam, fields :: result)
    else if fields.name.isEmpty then
      match team.delMember fields.guid with
      | none => none
      | some team => loadMembers team captainPresentInTeam result
    else
      loadMembers { team with members := team.members ++ [newMember fields] }
        (captainPresentInTeam || fields.guid == team.captainGuid) result

/-- `LoadMembersFromDB`, with what it returns. -/
def loadMembersFromDB (team : ArenaTeam) :
    Option (List MemberRow) → Option (ArenaTeam × Bool × Option (List MemberRow))
  | none => some (team, false, none)
  | some result =>
    match team.loadMembers false result with
    | none => none
    | some (team, captainPresentInTeam, result) =>
      some (team, !(team.members.isEmpty || !captainPresentInTeam), some result)

/-- The loop of `Disband` over as many members as there are. -/
def delMembers : ℕ → ArenaTeam → Option ArenaTeam
  | 0, team => some team
  | count + 1, team =>
    match team.members with
    | [] => some team
    | member :: _ =>
      match team.delMember member.guid with
      | none => none
      | some team => delMembers count team

/-- `Disband` of a team that is not loaded, and what it leaves of the store. -/
def disband (team : ArenaTeam) (store : ArenaTeamStore) : Option ArenaTeamStore :=
  match delMembers team.members.length team with
  | none => none
  | some team => some (Function.update store team.teamId none)

end ArenaTeam

/-- The loop of `LoadArenaTeams`. -/
def loadTeams :
    List ArenaTeamRow → Option (List MemberRow) → ArenaTeamStore → Option ArenaTeamStore
  | [], _, store => some store
  | fields :: result, result2, store =>
    match (loadArenaTeamFromDB fields).loadMembersFromDB result2 with
    | none => none
    | some (newArenaTeam, true, result2) =>
      loadTeams result result2 (Function.update store newArenaTeam.teamId (some newArenaTeam))
    | some (newArenaTeam, false, result2) =>
      match newArenaTeam.disband store with
      | none => none
      | some store => loadTeams result result2 store

/-- `LoadArenaTeams`: a query without rows gives no result. -/
def loadArenaTeams (result : List ArenaTeamRow) (result2 : List MemberRow) :
    Option ArenaTeamStore :=
  loadTeams result (if result2.isEmpty then none else some result2) fun _ => none

/-! ### The tables -/

/-- The rows of `arena_team` in the order of their ids. -/
structure ArenaTeamTable where
  rows : List ArenaTeamRow
  sorted : rows.Pairwise fun a b => a.arenaTeamId < b.arenaTeamId

/-- What the query for the members gives: rows in the order of their teams, which are all in the
table.  The name is looked up by the guid. -/
structure MemberResult (teams : ArenaTeamTable) where
  rows : List MemberRow
  sorted : rows.Pairwise fun a b => a.arenaTeamId ≤ b.arenaTeamId
  known : ∀ row ∈ rows, ∃ team ∈ teams.rows, team.arenaTeamId = row.arenaTeamId
  name_eq : ∀ row ∈ rows, ∀ row' ∈ rows, row.guid = row'.guid → row.name = row'.name

def own (rows : List MemberRow) (teamId : ℕ) : List MemberRow :=
  rows.filter fun row => row.arenaTeamId = teamId

/-- Those with the name of a character. -/
def named (rows : List MemberRow) : List MemberRow := rows.filter fun row => !row.name.isEmpty

/-- A named member under the id of the team is its captain. -/
def HasCaptain (rows : List MemberRow) (team : ArenaTeamRow) : Prop :=
  ∃ row ∈ named (own rows team.arenaTeamId), row.guid = team.captainGuid

/-- The team is of an unknown type, and a member is deleted from it: one without name, or each one
if there is no captain. -/
def Stops (rows : List MemberRow) (team : ArenaTeamRow) : Prop :=
  3 ≤ getSlotByType team.type ∧ ((∃ row ∈ own rows team.arenaTeamId, row.name.isEmpty = true) ∨
      named (own rows team.arenaTeamId) ≠ [] ∧ ¬HasCaptain rows team)

def merged (rows : List MemberRow) (team : ArenaTeamRow) : ArenaTeam :=
  { loadArenaTeamFromDB team with members := (named (own rows team.arenaTeamId)).map newMember }

structure Merges (teams : List ArenaTeamRow) (rows : List MemberRow) (store : ArenaTeamStore) :
    Prop where
  kept : ∀ team ∈ teams, (store team.arenaTeamId).isSome = true ↔ HasCaptain rows team
  eq_merged : ∀ team ∈ teams, ∀ loaded, store team.arenaTeamId = some loaded →
    loaded = merged rows team
  others : ∀ id, (∀ team ∈ teams, team.arenaTeamId ≠ id) → store id = none

variable {team : ArenaTeam} {fields : ArenaTeamRow} {rows rest : List MemberRow}
  {teams : List ArenaTeamRow} {store store' : ArenaTeamStore} {result2 : Option (List MemberRow)}
  {teamId : ℕ} {captain : Bool}

instance (rows : List MemberRow) (team : ArenaTeamRow) : Decidable (HasCaptain rows team) := by
  unfold HasCaptain
  infer_instance

/-! ### The rows of one team -/

def later (rows : List MemberRow) (teamId : ℕ) : List MemberRow :=
  rows.filter fun row => teamId < row.arenaTeamId

/-- **The rows of the first team come first.** -/
theorem own_append_later (hsorted : rows.Pairwise fun a b => a.arenaTeamId ≤ b.arenaTeamId)
    (hge : ∀ row ∈ rows, teamId ≤ row.arenaTeamId) :
    own rows teamId ++ later rows teamId = rows := by
  induction rows with
  | nil => rfl
  | cons row rows ih =>
    rw [pairwise_cons] at hsorted
    have hrow := hge row mem_cons_self
    have htail := ih hsorted.2 fun r hr => hge r (mem_cons_of_mem row hr)
    unfold own later at htail ⊢
    by_cases heq : row.arenaTeamId = teamId
    · rw [filter_cons_of_pos (by simpa using heq),
        filter_cons_of_neg (by simp; omega), cons_append, htail]
    have hnone : rows.filter (·.arenaTeamId = teamId) = [] := by
      refine filter_eq_nil_iff.mpr fun r hr => ?_
      have hle := hsorted.1 r hr
      simp
      omega
    rw [hnone, nil_append] at htail
    rw [filter_cons_of_neg (by simpa using heq), hnone, nil_append,
      filter_cons_of_pos (by simp; omega), htail]

theorem own_later {other : ℕ} (h : teamId < other) :
    own (later rows teamId) other = own rows other := by
  unfold own later
  rw [List.filter_filter]
  refine List.filter_congr fun row _ => ?_
  by_cases heq : row.arenaTeamId = other
  · simp [heq, h]
  · simp [heq]

/-! ### Deleting members -/

theorem delMember_eq (hslot : getSlotByType team.type < 3) {guid : ℕ}
    (hnot : ∀ member ∈ team.members, member.guid ≠ guid) : team.delMember guid = some team := by
  unfold ArenaTeam.delMember
  rw [if_pos hslot, eraseP_of_forall_not (by simpa using hnot)]

theorem delMembers_eq_none {count : ℕ} (hcount : count = team.members.length) :
    ArenaTeam.delMembers count team = none ↔ 3 ≤ getSlotByType team.type ∧ team.members ≠ [] := by
  induction count generalizing team with
  | zero =>
    have hnil : team.members = [] := length_eq_zero_iff.mp hcount.symm
    simp [ArenaTeam.delMembers, hnil]
  | succ count ih =>
    unfold ArenaTeam.delMembers
    cases hmembers : team.members with
    | nil =>
      rw [hmembers] at hcount
      cases hcount
    | cons member members =>
      unfold ArenaTeam.delMember
      rw [hmembers] at hcount ⊢
      dsimp only
      by_cases hslot : getSlotByType team.type < 3
      · rw [if_pos hslot]
        rw [ih (by simpa using hcount)]
        exact iff_of_false (fun h => absurd h.1 (by dsimp only; omega)) fun h => by omega
      rw [if_neg hslot]
      exact iff_of_true rfl ⟨by omega, cons_ne_nil _ _⟩

theorem delMembers_teamId {count : ℕ} {team' : ArenaTeam}
    (h : ArenaTeam.delMembers count team = some team') : team'.teamId = team.teamId := by
  induction count generalizing team with
  | zero => exact congrArg ArenaTeam.teamId (some.inj h).symm
  | succ count ih =>
    unfold ArenaTeam.delMembers ArenaTeam.delMember at h
    cases hmembers : team.members with
    | nil =>
      rw [hmembers] at h
      exact congrArg ArenaTeam.teamId (some.inj h).symm
    | cons member members =>
      rw [hmembers] at h
      by_cases hslot : getSlotByType team.type < 3
      · simp only [hslot, if_true] at h
        have hrest := ih h
        exact hrest
      simp only [hslot, if_false] at h
      cases h

/-! ### Loading the members of one team -/

/-- **A team takes its rows and leaves the cursor behind them.** -/
theorem loadMembers_eq (mine : List MemberRow) (hmine : ∀ row ∈ mine, row.arenaTeamId = team.teamId)
    (hrest : ∀ row ∈ rest, team.teamId < row.arenaTeamId)
    (hname : ∀ row ∈ mine, ∀ row' ∈ mine, row.guid = row'.guid → row.name = row'.name)
    (hmembers : ∀ member ∈ team.members, ∀ row ∈ mine, row.name.isEmpty = true →
      member.guid ≠ row.guid) : team.loadMembers captain (mine ++ rest) =
      if 3 ≤ getSlotByType team.type ∧ ∃ row ∈ mine, row.name.isEmpty = true then none
      else some ({ team with members := team.members ++ (named mine).map newMember },
        captain || (named mine).any (·.guid == team.captainGuid), rest) := by
  induction mine generalizing team captain with
  | nil =>
    have hend : team.loadMembers captain rest = some (team, captain, rest) := by
      cases rest with
      | nil => rfl
      | cons row rest =>
        exact if_pos (hrest row mem_cons_self)
    rw [nil_append, hend, if_neg (by simp)]
    simp [named]
  | cons row mine ih =>
    have hid := hmine row mem_cons_self
    rw [cons_append]
    unfold ArenaTeam.loadMembers
    rw [if_neg (by omega)]
    by_cases hempty : row.name.isEmpty = true
    · rw [if_pos hempty]
      by_cases hslot : getSlotByType team.type < 3
      · rw [delMember_eq hslot fun member h => hmembers member h row mem_cons_self hempty]
        dsimp only
        rw [ih (fun r hr => hmine r (mem_cons_of_mem row hr)) hrest
          (fun r hr r' hr' => hname r (mem_cons_of_mem row hr) r' (mem_cons_of_mem row hr'))
          fun member h r hr => hmembers member h r (mem_cons_of_mem row hr)]
        rw [if_neg (by omega), if_neg (by omega)]
        unfold named
        rw [filter_cons_of_neg (by simpa using hempty)]
      unfold ArenaTeam.delMember
      rw [if_neg hslot, if_pos ⟨by omega, row, mem_cons_self, hempty⟩]
    have hnamed : named (row :: mine) = row :: named mine := by
      unfold named
      rw [filter_cons_of_pos (by simpa using hempty)]
    have hexists : (∃ r ∈ row :: mine, r.name.isEmpty = true) ↔
        ∃ r ∈ mine, r.name.isEmpty = true := by
      rw [exists_mem_cons_iff]
      exact or_iff_right hempty
    have hkeep : ∀ member ∈ team.members ++ [newMember row], ∀ r ∈ mine,
        r.name.isEmpty = true → member.guid ≠ r.guid := by
      intro member h r hr hnameless
      rcases mem_append.mp h with h | h
      · exact hmembers member h r (mem_cons_of_mem row hr) hnameless
      -- the new member has a name, and so has every row of the same guid
      obtain rfl := mem_singleton.mp h
      intro hguid
      have heq := hname row mem_cons_self r (mem_cons_of_mem row hr) hguid
      rw [heq] at hempty
      exact hempty hnameless
    have hnext := @ih { team with members := team.members ++ [newMember row] }
      (captain || row.guid == team.captainGuid)
      (fun r hr => hmine r (mem_cons_of_mem row hr)) hrest
      (fun r hr r' hr' => hname r (mem_cons_of_mem row hr) r' (mem_cons_of_mem row hr')) hkeep
    rw [if_neg hempty, hnext, hnamed]
    simp only [hexists]
    simp [append_assoc, Bool.or_assoc]

/-- What a cursor still has. -/
abbrev remaining (result : Option (List MemberRow)) : List MemberRow := result.getD []

theorem hasCaptain_iff : (named (own rows fields.arenaTeamId)).any
    (·.guid == fields.captainGuid) = true ↔ HasCaptain rows fields := by
  unfold HasCaptain
  simp

/-- The rows at the cursor, when it is at the first one that is not of an earlier team. -/
structure AtTeam (teamId : ℕ) (rows : List MemberRow) : Prop where
  sorted : rows.Pairwise fun a b => a.arenaTeamId ≤ b.arenaTeamId
  ge : ∀ row ∈ rows, teamId ≤ row.arenaTeamId
  name_eq : ∀ row ∈ rows, ∀ row' ∈ rows, row.guid = row'.guid → row.name = row'.name

/-- A member without name is deleted from a team of an unknown type. -/
def StopsLoading (rows : List MemberRow) (team : ArenaTeamRow) : Prop :=
  3 ≤ getSlotByType team.type ∧ ∃ row ∈ own rows team.arenaTeamId, row.name.isEmpty = true

/-- **The members of one team.** -/
theorem loadMembersFromDB_eq (hrows : AtTeam fields.arenaTeamId (remaining result2)) :
    (StopsLoading (remaining result2) fields ∧
        (loadArenaTeamFromDB fields).loadMembersFromDB result2 = none) ∨
      ¬StopsLoading (remaining result2) fields ∧
        ∃ rest, remaining rest = later (remaining result2) fields.arenaTeamId ∧
          (loadArenaTeamFromDB fields).loadMembersFromDB result2 =
            some (merged (remaining result2) fields,
              decide (HasCaptain (remaining result2) fields), rest) := by
  cases result2 with
  | none => exact .inr ⟨by simp [StopsLoading, own], none, rfl, rfl⟩
  | some rows =>
    replace hrows : AtTeam fields.arenaTeamId rows := hrows
    have hmine : ∀ row ∈ own rows fields.arenaTeamId, row.arenaTeamId = fields.arenaTeamId :=
      fun row h => by simpa using (mem_filter.mp h).2
    have hsplit := own_append_later hrows.sorted hrows.ge
    have hlater : ∀ row ∈ later rows fields.arenaTeamId, fields.arenaTeamId < row.arenaTeamId :=
      fun row h => by simpa using (mem_filter.mp h).2
    have hload := @loadMembers_eq (loadArenaTeamFromDB fields)
      (later rows fields.arenaTeamId) false (own rows fields.arenaTeamId) hmine hlater
      (fun row h row' h' => hrows.name_eq row (mem_of_mem_filter h) row' (mem_of_mem_filter h'))
      (fun member h => absurd h not_mem_nil)
    rw [hsplit] at hload
    unfold ArenaTeam.loadMembersFromDB
    dsimp only [remaining, getD_some]
    by_cases hstop : StopsLoading rows fields
    · rw [if_pos (show 3 ≤ getSlotByType (loadArenaTeamFromDB fields).type ∧ _ from hstop)] at hload
      exact .inl ⟨hstop, by rw [hload]⟩
    rw [if_neg (show ¬(3 ≤ getSlotByType (loadArenaTeamFromDB fields).type ∧ _) from hstop)]
      at hload
    refine .inr ⟨hstop, some (later rows fields.arenaTeamId), rfl, ?_⟩
    rw [hload]
    have hcaptain : (!((merged rows fields).members.isEmpty || !(named
        (own rows fields.arenaTeamId)).any fun row => row.guid == fields.captainGuid)) =
          decide (HasCaptain rows fields) := by
      rw [Bool.eq_iff_iff, decide_eq_true_iff, ← hasCaptain_iff]
      unfold merged
      cases hnamed : named (own rows fields.arenaTeamId) with
      | nil | cons row rest => simp
    exact congrArg (fun ok => some (merged rows fields, ok, _)) hcaptain

/-- The rows at the cursor before the loop goes over the teams. -/
structure AtTeams (teams : List ArenaTeamRow) (rows : List MemberRow) : Prop where
  sorted : rows.Pairwise fun a b => a.arenaTeamId ≤ b.arenaTeamId
  known : ∀ row ∈ rows, ∃ team ∈ teams, team.arenaTeamId = row.arenaTeamId
  name_eq : ∀ row ∈ rows, ∀ row' ∈ rows, row.guid = row'.guid → row.name = row'.name

theorem AtTeams.first (h : AtTeams (fields :: teams) rows)
    (hteams : ∀ team ∈ teams, fields.arenaTeamId < team.arenaTeamId) :
    AtTeam fields.arenaTeamId rows := by
  refine ⟨h.sorted, fun row hrow => ?_, h.name_eq⟩
  obtain ⟨team, hteam, hid⟩ := h.known row hrow
  rw [← hid]
  rcases mem_cons.mp hteam with rfl | hteam
  · exact le_refl _
  · exact Nat.le_of_lt (hteams team hteam)

theorem AtTeams.next (h : AtTeams (fields :: teams) rows) :
    AtTeams teams (later rows fields.arenaTeamId) := by
  refine ⟨h.sorted.filter _, fun row hrow => ?_, fun row hrow row' hrow' =>
    h.name_eq row (mem_of_mem_filter hrow) row' (mem_of_mem_filter hrow')⟩
  obtain ⟨team, hteam, hid⟩ := h.known row (mem_of_mem_filter hrow)
  have hlt : fields.arenaTeamId < row.arenaTeamId := by simpa using (mem_filter.mp hrow).2
  rcases mem_cons.mp hteam with rfl | hteam
  · omega
  · exact ⟨team, hteam, hid⟩

def outcome (rows : List MemberRow) (team : ArenaTeamRow) : Option ArenaTeam :=
  if HasCaptain rows team then some (merged rows team) else none

theorem later_team {team : ArenaTeamRow} (h : teamId < team.arenaTeamId) :
    outcome (later rows teamId) team = outcome rows team ∧
      (Stops (later rows teamId) team ↔ Stops rows team) := by
  have hcaptain : HasCaptain (later rows teamId) team ↔ HasCaptain rows team := by
    unfold HasCaptain
    rw [own_later h]
  have hmerged : merged (later rows teamId) team = merged rows team := by
    unfold merged
    rw [own_later h]
  unfold outcome Stops
  rw [own_later h, hmerged]
  simp only [hcaptain, true_and]

theorem stops_iff {team : ArenaTeamRow} : Stops rows team ↔ StopsLoading rows team ∨
    3 ≤ getSlotByType team.type ∧ named (own rows team.arenaTeamId) ≠ [] ∧
      ¬HasCaptain rows team := by
  exact and_or_left

theorem loadTeams_cons (hrows : AtTeam fields.arenaTeamId (remaining result2)) :
    Stops (remaining result2) fields ∧ loadTeams (fields :: teams) result2 store = none ∨
      ¬Stops (remaining result2) fields ∧
        ∃ rest, remaining rest = later (remaining result2) fields.arenaTeamId ∧
          loadTeams (fields :: teams) result2 store = loadTeams teams rest
            (Function.update store fields.arenaTeamId (outcome (remaining result2) fields)) := by
  rw [loadTeams, stops_iff]
  unfold outcome
  rcases loadMembersFromDB_eq hrows with ⟨hstop, hload⟩ | ⟨hgo, rest, hrest, hload⟩
  · exact .inl ⟨.inl hstop, by rw [hload]⟩
  rw [hload]
  by_cases hcaptain : HasCaptain (remaining result2) fields
  · refine .inr ⟨?_, rest, hrest, ?_⟩
    · rintro (h | h)
      · exact hgo h
      · exact h.2.2 hcaptain
    rw [decide_eq_true hcaptain, if_pos hcaptain]
    rfl
  rw [decide_eq_false hcaptain, if_neg hcaptain]
  dsimp only
  have hnone := @delMembers_eq_none (merged (remaining result2) fields) _ rfl
  unfold ArenaTeam.disband
  cases hdel : ArenaTeam.delMembers (merged (remaining result2) fields).members.length
      (merged (remaining result2) fields) with
  | none =>
    obtain ⟨hslot, hmembers⟩ := hnone.mp hdel
    refine .inl ⟨.inr ⟨hslot, fun h => hmembers ?_, hcaptain⟩, rfl⟩
    unfold merged
    rw [h]
    rfl
  | some team =>
    refine .inr ⟨?_, rest, hrest, ?_⟩
    · rintro (h | ⟨hslot, hne, -⟩)
      · exact hgo h
      rw [hnone.mpr ⟨hslot, fun h => hne (map_eq_nil_iff.mp h)⟩] at hdel
      cases hdel
    dsimp only
    rw [delMembers_teamId hdel]
    rfl

/-- **The loop over the teams** puts each team with a captain into the store, with its members, and
takes the others out. -/
theorem loadTeams_spec (hteams : teams.Pairwise fun a b => a.arenaTeamId < b.arenaTeamId)
    (hrows : AtTeams teams (remaining result2)) :
    (loadTeams teams result2 store = none ↔ ∃ team ∈ teams, Stops (remaining result2) team) ∧
      ∀ store', loadTeams teams result2 store = some store' →
        (∀ team ∈ teams, store' team.arenaTeamId = outcome (remaining result2) team) ∧
        ∀ id, (∀ team ∈ teams, team.arenaTeamId ≠ id) → store' id = store id := by
  induction teams generalizing result2 store with
  | nil =>
    refine ⟨by simp [loadTeams], fun store' h => ?_⟩
    obtain rfl := some.inj h
    exact ⟨fun team hteam => absurd hteam not_mem_nil, fun id _ => rfl⟩
  | cons fields teams ih =>
    rw [pairwise_cons] at hteams
    rcases loadTeams_cons (hrows.first hteams.1) with ⟨hstop, hnone⟩ | ⟨hgo, rest, hrest, hload⟩
    · refine ⟨iff_of_true hnone ⟨fields, mem_cons_self, hstop⟩, fun store' h => ?_⟩
      rw [hnone] at h
      cases h
    obtain ⟨hend, hstore⟩ := @ih
      (Function.update store fields.arenaTeamId (outcome (remaining result2) fields)) rest
      hteams.2 (by rw [hrest]; exact hrows.next)
    rw [hrest] at hend hstore
    rw [hload]
    constructor
    · rw [hend, exists_mem_cons_iff, or_iff_right hgo]
      refine exists_congr fun team => and_congr_right fun hteam => ?_
      exact (later_team (hteams.1 team hteam)).2
    intro store' h
    obtain ⟨hkept, hothers⟩ := hstore store' h
    constructor
    · intro team hteam
      rcases mem_cons.mp hteam with rfl | hteam
      · rw [hothers _ fun other hother => Nat.ne_of_gt (hteams.1 other hother),
          Function.update_self]
      · rw [hkept team hteam, (later_team (hteams.1 team hteam)).1]
    intro id hid
    rw [hothers id fun team hteam => hid team (mem_cons_of_mem fields hteam),
      Function.update_of_ne (hid fields mem_cons_self).symm]

/-! ### The whole load -/

/-- **The load is the merge of the teams with their members**, and it is stopped by the assertion if
and only if a member is deleted from a team of an unknown type. -/
theorem load_merges (teams : ArenaTeamTable) (members : MemberResult teams) :
    (loadArenaTeams teams.rows members.rows = none ↔ ∃ team ∈ teams.rows, Stops members.rows team) ∧
      ∀ store, loadArenaTeams teams.rows members.rows = some store →
        Merges teams.rows members.rows store := by
  have hremaining : remaining (if members.rows.isEmpty then none else some members.rows) =
      members.rows := by
    cases members.rows with
    | nil => rfl
    | cons row rows => rfl
  have hrows : AtTeams teams.rows
      (remaining (if members.rows.isEmpty then none else some members.rows)) := by
    rw [hremaining]
    exact ⟨members.sorted, members.known, members.name_eq⟩
  obtain ⟨hend, hstore⟩ := @loadTeams_spec _ (fun _ => none) _ teams.sorted hrows
  rw [hremaining] at hend hstore
  refine ⟨hend, fun store h => ?_⟩
  obtain ⟨hkept, hothers⟩ := hstore store h
  refine ⟨fun team hteam => ?_, fun team hteam loaded hloaded => ?_, hothers⟩
  · rw [hkept team hteam]
    unfold outcome
    split_ifs with hcaptain
    · exact iff_of_true rfl hcaptain
    · exact iff_of_false (by decide) hcaptain
  rw [hkept team hteam] at hloaded
  unfold outcome at hloaded
  split_ifs at hloaded
  exact (some.inj hloaded).symm

/-- A team of the type `4` with its captain and a member whose character is gone. -/
def oddTeam : ArenaTeamRow := ⟨1, "Odd", 5, 4, 0, 0, 0, 0, 0, 1500, 0, 0, 0, 0, 0⟩

def oddMembers : List MemberRow :=
  [⟨1, 5, 0, 0, 0, 0, "Ann", 1, 0, 0⟩, ⟨1, 6, 0, 0, 0, 0, "", 0, 0, 0⟩]

/-- Its captain is named, but the load does not come to its end. -/
theorem oddTeam_stops : HasCaptain oddMembers oddTeam ∧
      ¬∃ store, loadArenaTeams [oddTeam] oddMembers = some store ∧
        Merges [oddTeam] oddMembers store := by
  constructor
  · decide
  rintro ⟨store, hload, -⟩
  cases hload

end ZerosCore.ArenaTeams
