/-
# What a rated arena match leaves on the records

A match between two arena teams should be ended once, while it is running, for a side
whose opponents are dead or gone; each team should have at most one game for it, and each
player who came in exactly one, won if he was there on the winning side at the end
(`Accounted`).

The source misses this in six ways, and `Regular` says when it does not.  The hook
`RemovePlayer` tests for a winner also before the start.  `EventPlayerLoggedOut` ends the
match when at most one of the team is alive, also when that one is not the player who
leaves, and may end it again right after `RemovePlayer` has.  The team it looks at is that
of `GetTeam()`, which after a login is the side of the player's race and may be that of
the opponents.  A tick may end it twice when the time limit is over.  At the time limit the
losses of offline players go to the team of the `ALLIANCE` side whichever side they are on.
And who comes in after the end gets no game.

Along every run that meets `Regular` the accounts are right (`accounted_of_regular`).
`Books` is what carries the induction: a player who is still in has no game yet, one who
is out has one, and the end settles everybody who is in.
-/

import ZerosCore.Battlegrounds.Arena
import ZerosCore.Battlegrounds.Roster

namespace ZerosCore.Battlegrounds

open Lib Lib.Keyed List Option Battleground Table Function ArenaTeam Arena

/-! ### Records -/

/-- The games on the record of a player in the team of his side. -/
def gamesOf (teams : Team → ArenaTeam) (x : Guid × Team) : ℕ :=
  (((teams x.2).members.get? x.1).map ArenaTeamMember.games).getD 0

/-- The wins on the record of a player in the team of his side. -/
def winsOf (teams : Team → ArenaTeam) (x : Guid × Team) : ℕ :=
  (((teams x.2).members.get? x.1).map ArenaTeamMember.wins).getD 0

variable {teams : Team → ArenaTeam} {guid : Guid} {team t : Team}

theorem Team.ne_iff {a b : Team} : a ≠ b ↔ a = b.other := by cases a <;> cases b <;> decide

/-- The teams with one member's record rewritten. -/
def rewrite (teams : Team → ArenaTeam) (team : Team) (guid : Guid)
    (f : ArenaTeamMember → ArenaTeamMember) (hf : ∀ m, (f m).guid = m.guid) : Team → ArenaTeam :=
  Function.update teams team
    { teams team with members := (teams team).members.modify guid f hf }

variable {f : ArenaTeamMember → ArenaTeamMember}
variable {hf : ∀ m, (f m).guid = m.guid}

theorem get?_rewrite (x : Guid × Team) : ((rewrite teams team guid f hf) x.2).members.get? x.1 =
      if x = (guid, team) then ((teams x.2).members.get? x.1).map f
      else (teams x.2).members.get? x.1 := by
  obtain ⟨g, t⟩ := x
  unfold rewrite
  by_cases ht : t = team
  · subst ht
    rw [update_self, get?_modify]
    simp only [Prod.mk.injEq, and_true]
  · rw [update_of_ne ht, if_neg fun h => ht (congrArg Prod.snd h)]

theorem games_rewrite (t : Team) : ((rewrite teams team guid f hf) t).games = (teams t).games := by
  unfold rewrite
  by_cases ht : t = team
  · subst ht
    rw [update_self]
  · rw [update_of_ne ht]

theorem isMember_rewrite (t : Team) (g : Guid) :
    ((rewrite teams team guid f hf) t).isMember g = (teams t).isMember g := by
  have h := @get?_rewrite teams guid team f hf (g, t)
  unfold isMember
  rw [show ((rewrite teams team guid f hf) t).members.get? g = _ from h]
  split_ifs
  · rw [isSome_map]
  · rfl

/-- A rewritten record of a member: his games and his wins move, and nobody else's. -/
theorem tally_rewrite (hmem : (teams team).isMember guid = true) (games wins : ℕ)
    (hg : ∀ m, (f m).games = m.games + games) (hw : ∀ m, (f m).wins = m.wins + wins)
    (x : Guid × Team) : gamesOf (rewrite teams team guid f hf) x =
        gamesOf teams x + (if (guid, team) = x then games else 0) ∧
      winsOf (rewrite teams team guid f hf) x =
        winsOf teams x + (if (guid, team) = x then wins else 0) := by
  unfold gamesOf winsOf
  rw [get?_rewrite]
  by_cases hx : x = (guid, team)
  · subst hx
    obtain ⟨m, hm⟩ := isSome_iff_exists.mp hmem
    simp [hm, hg, hw]
  · simp [hx, Ne.symm hx]

theorem tally_memberLost (hmem : (teams team).isMember guid = true) (x : Guid × Team) :
    gamesOf (update teams team ((teams team).memberLost guid)) x =
        gamesOf teams x + (if (guid, team) = x then 1 else 0) ∧
      winsOf (update teams team ((teams team).memberLost guid)) x = winsOf teams x := by
  have h := @tally_rewrite teams guid team (fun m => { m with games := m.games + 1 })
    (fun _ => rfl) hmem 1 0 (fun _ => rfl) (fun _ => rfl) x
  rw [ite_self, Nat.add_zero] at h
  exact h

theorem tally_memberWon (hmem : (teams team).isMember guid = true) (x : Guid × Team) :
    gamesOf (update teams team ((teams team).memberWon guid)) x =
        gamesOf teams x + (if (guid, team) = x then 1 else 0) ∧
      winsOf (update teams team ((teams team).memberWon guid)) x =
        winsOf teams x + (if (guid, team) = x then 1 else 0) :=
  @tally_rewrite teams guid team (fun m => { m with games := m.games + 1, wins := m.wins + 1 })
    (fun _ => rfl) hmem 1 1 (fun _ => rfl) (fun _ => rfl) x

namespace Arena

variable {s : Arena}

/-! ### Settling everybody who is in -/

/-- What the records say of a player, before he is settled. -/
structure Payable (winner : Option Team) (s : Arena) (p : BattlegroundPlayer) : Prop where
  member : (s.arenaTeam p.team).isMember p.guid = true
  other : (s.arenaTeam p.team.other).isMember p.guid = false
  present : p.offlineRemoveTime = 0 → s.bg.inWorld p.guid = true
  draw : winner = none → p.offlineRemoveTime ≠ 0 → p.team = .alliance

/-- The player was there at the end, on the winning side. -/
def wonBy (winner : Option Team) (p : BattlegroundPlayer) : Bool :=
  p.offlineRemoveTime = 0 ∧ some p.team = winner

variable {winner : Option Team} {p : BattlegroundPlayer}

theorem settle_arenaTeam (h : Payable winner s p) : (settle winner s p).arenaTeam =
      if wonBy winner p then Function.update s.arenaTeam p.team ((s.arenaTeam p.team).memberWon p.guid)
      else Function.update s.arenaTeam p.team ((s.arenaTeam p.team).memberLost p.guid) := by
  by_cases hoff : p.offlineRemoveTime = 0
  · have hin := h.present hoff
    by_cases hwin : some p.team = winner
    · subst hwin
      simp [settle, wonBy, hoff, hin, teamIndex]
    have hlost : wonBy winner p = false := by simp [wonBy, hwin]
    rw [hlost, if_neg Bool.false_ne_true]
    -- of the two teams, the one that has him is his own
    have hteam : teamIndex winner = p.team ∧ otherTeamIndex winner = p.team.other ∨
        teamIndex winner = p.team.other ∧ otherTeamIndex winner = p.team := by
      rcases winner with _ | w
      · cases p.team <;> simp [teamIndex, otherTeamIndex, Team.other]
      · cases hp : p.team <;> cases w <;> simp [teamIndex, otherTeamIndex, Team.other, hp] at hwin ⊢
    rcases hteam with ⟨hw, hl⟩ | ⟨hw, hl⟩
    · simp [settle, hoff, hin, hwin, hw, h.member]
    · simp [settle, hoff, hin, hwin, hw, hl, h.member, h.other]
  have hlost : wonBy winner p = false := by simp [wonBy, hoff]
  rw [hlost, if_neg Bool.false_ne_true]
  by_cases hwin : some p.team = winner
  · subst hwin
    simp [settle, hoff, teamIndex, offlineMemberLost]
  have hl : otherTeamIndex winner = p.team := by
    rcases winner with _ | w
    · exact (h.draw rfl hoff).symm
    have : p.team ≠ w := fun he => hwin (he ▸ rfl)
    exact (Team.ne_iff.mp this).symm
  simp [settle, hoff, hwin, hl, offlineMemberLost]

/-- Settling a player touches the records of the teams and raises the player. -/
theorem settle_eq (winner : Option Team) (s : Arena) (p : BattlegroundPlayer) : settle winner s p =
      { s with arenaTeam := (settle winner s p).arenaTeam, dead := (settle winner s p).dead } := by
  unfold settle
  dsimp only
  split_ifs <;> rfl

theorem bg_settle : (settle winner s p).bg = s.bg := by rw [settle_eq]

theorem foldl_settle_eq (winner : Option Team) (l : List BattlegroundPlayer) (s : Arena) :
    ∃ teams dead, l.foldl (settle winner) s = { s with arenaTeam := teams, dead := dead } := by
  induction l generalizing s with
  | nil => exact ⟨_, _, rfl⟩
  | cons p l ih =>
    obtain ⟨teams, dead, heq⟩ := ih (settle winner s p)
    exact ⟨teams, dead, by rw [foldl_cons, heq, settle_eq]⟩

theorem settle_tally (h : Payable winner s p) :
    (∀ t, ((settle winner s p).arenaTeam t).games = (s.arenaTeam t).games) ∧
      (∀ t g, ((settle winner s p).arenaTeam t).isMember g = (s.arenaTeam t).isMember g) ∧
      ∀ x, gamesOf (settle winner s p).arenaTeam x =
          gamesOf s.arenaTeam x + (if (p.guid, p.team) = x then 1 else 0) ∧
        winsOf (settle winner s p).arenaTeam x =
          winsOf s.arenaTeam x + (if (p.guid, p.team) = x ∧ wonBy winner p then 1 else 0) := by
  rw [settle_arenaTeam h]
  split_ifs with hw
  · refine ⟨games_rewrite, isMember_rewrite, fun x => ?_⟩
    simpa only [hw, and_true] using tally_memberWon h.member x
  refine ⟨games_rewrite, isMember_rewrite, fun x => ?_⟩
  simpa only [hw, Bool.false_eq_true, and_false, if_false, Nat.add_zero]
    using tally_memberLost h.member x

/-- **The tally of everybody.** -/
theorem foldl_settle_tally (l : List BattlegroundPlayer) (h : ∀ p ∈ l, Payable winner s p) :
    (∀ t, ((l.foldl (settle winner) s).arenaTeam t).games = (s.arenaTeam t).games) ∧
      (∀ t g, ((l.foldl (settle winner) s).arenaTeam t).isMember g = (s.arenaTeam t).isMember g) ∧
      ∀ x, gamesOf (l.foldl (settle winner) s).arenaTeam x =
          gamesOf s.arenaTeam x + l.countP (fun p => (p.guid, p.team) = x) ∧
        winsOf (l.foldl (settle winner) s).arenaTeam x =
          winsOf s.arenaTeam x + l.countP fun p => (p.guid, p.team) = x ∧ wonBy winner p := by
  induction l generalizing s with
  | nil => exact ⟨fun _ => rfl, fun _ _ => rfl, fun _ => ⟨rfl, rfl⟩⟩
  | cons p l ih =>
    obtain ⟨hgames, hmem, htally⟩ := settle_tally (h p mem_cons_self)
    have hrest : ∀ q ∈ l, Payable winner (settle winner s p) q := by
      intro q hq
      have hq := h q (mem_cons_of_mem _ hq)
      refine ⟨(hmem _ _).trans hq.member, (hmem _ _).trans hq.other, ?_, hq.draw⟩
      rw [bg_settle]
      exact hq.present
    obtain ⟨hgames', hmem', htally'⟩ := ih hrest
    refine ⟨fun t => (hgames' t).trans (hgames t), fun t g => (hmem' t g).trans (hmem t g),
      fun x => ?_⟩
    rw [foldl_cons, (htally' x).1, (htally' x).2, (htally x).1, (htally x).2,
      countP_cons, countP_cons]
    simp only [decide_eq_true_eq]
    constructor <;> omega

/-! ### What should hold, what is promised, what is kept -/

/-- **The accounts of a match are right.** -/
structure Accounted (teams : Opponents) (s : Arena) : Prop where
  once : s.ends.length ≤ 1
  running : ∀ e ∈ s.ends, e.status = .inProgress
  decided : ∀ e ∈ s.ends, e.winner ≠ none → e.othersAlive = 0
  games : ∀ t, (s.arenaTeam t).games ≤ (teams.team t).games + 1
  /-- who is out, or was in at the end, has exactly one game more than before the match -/
  played : ∀ x ∈ s.entered, gamesOf s.arenaTeam x = gamesOf teams.team x +
    if s.ends = [] ∧ (s.bg.players.get? x.1).isSome then 0 else 1
  /-- and it is won just when he was online in the arena on the winning side at the end -/
  won : ∀ x ∈ s.entered, winsOf s.arenaTeam x = winsOf teams.team x +
    if ∃ e ∈ s.ends, x.1 ∈ e.onlineWinners then 1 else 0

/-- What the callers see to: who comes in is online, belongs to the team of his side and
comes in for the first time, and who leaves or logs out is there. -/
def Allowed (s : Arena) : ArenaRequest → Prop
  | .addPlayer guid team => s.bg.inWorld guid = true ∧ s.bg.players.get? guid = none ∧
      guid ∉ s.entered.map Prod.fst ∧ (s.arenaTeam team).isMember guid = true
  | .eventPlayerLoggedIn guid => (s.bg.players.get? guid).isSome = true
  | .eventPlayerLoggedOut guid => s.bg.inWorld guid = true
  | .removePlayerAtLeave guid => s.bg.inWorld guid = true ∨ s.bg.status = .waitLeave
  | .appear guid => s.bg.players.get? guid = none
  | _ => True

/-- The arena with a player taken off the roster. -/
def without (s : Arena) (guid : Guid) : Arena := { s with bg := s.bg.removePlayerAtLeave guid }

/-- How many of a team would be alive if everyone online but one player were raised. -/
def standing (s : Arena) (guid : Guid) (team : Team) : ℕ :=
  s.bg.players.rows.countP fun q =>
    q.team = team ∧ s.bg.inWorld q.guid ∧ (q.guid ≠ guid ∨ s.dead q.guid = false)

/-- The member at the head of the offline queue, if his time is over. -/
def dueMember (s : Arena) : Option Guid :=
  s.bg.offlineQueue.head?.filter fun guid =>
    (s.bg.players.get? guid).any fun p => p.offlineRemoveTime ≤ s.bg.gameTime

/-- The steps at which the source keeps its accounts. -/
def Regular (s : Arena) : ArenaRequest → Prop
  | .addPlayer _ _ => s.bg.status ≠ .waitLeave
  | .removePlayerAtLeave guid => s.bg.status = .waitJoin → (s.without guid).arenaWinner = none
  | .eventPlayerLoggedOut guid =>
    ∀ p ∈ s.bg.players.get? guid, s.bg.status = .inProgress →
      s.bg.playersCount (s.getTeam guid).other ≠ 0 →
        if s.arenaWinner = none then (p.team = s.getTeam guid → s.dead guid = true) →
          s.getAlivePlayersCountByTeam (s.getTeam guid) ≠ 1
        else 1 < s.standing guid (s.getTeam guid)
  | .update _ _ => s.bg.status = .inProgress → arenaTimeLimit ≤ s.elapsedTime →
      (∀ guid ∈ s.dueMember, (s.without guid).arenaWinner = none) ∧
        ∀ p ∈ s.bg.players.rows, p.offlineRemoveTime ≠ 0 → some p.guid ≠ s.dueMember →
          p.team = .alliance
  | _ => True

instance (s : Arena) : (r : ArenaRequest) → Decidable (s.Allowed r)
  | .addPlayer _ _ => inferInstanceAs (Decidable (_ ∧ _ ∧ _ ∧ _))
  | .removePlayerAtLeave _ => inferInstanceAs (Decidable (_ ∨ _))
  | .eventPlayerLoggedIn _ | .eventPlayerLoggedOut _ | .appear _ =>
    inferInstanceAs (Decidable (_ = _))
  | .kill _ _ | .update _ _ | .pass _ | .restoreFaction _ => .isTrue trivial

instance (s : Arena) : (r : ArenaRequest) → Decidable (s.Regular r)
  | .addPlayer _ _ => inferInstanceAs (Decidable (_ ≠ _))
  | .removePlayerAtLeave _ => inferInstanceAs (Decidable (_ → _))
  | .eventPlayerLoggedOut guid =>
    inferInstanceAs (Decidable (∀ p ∈ s.bg.players.get? guid, _ → _ → ite _ _ _))
  | .update _ _ => inferInstanceAs (Decidable (_ → _ → _ ∧ ∀ p ∈ s.bg.players.rows, _ → _ → _))
  | .eventPlayerLoggedIn _ | .kill _ _ | .pass _ | .appear _ | .restoreFaction _ => .isTrue trivial

/-- What every step keeps, half way through a request too. -/
structure Books (teams : Opponents) (s : Arena) : Prop where
  finished : s.bg.status = .waitLeave ↔ s.ends ≠ []
  once : s.ends.length ≤ 1
  ends : ∀ e ∈ s.ends, e.status = .inProgress ∧ (e.winner ≠ none → e.othersAlive = 0)
  games : ∀ t, (s.arenaTeam t).games ≤ (teams.team t).games + s.ends.length
  member : ∀ t g, (s.arenaTeam t).isMember g = (teams.team t).isMember g
  inside : ∀ p ∈ s.bg.players.rows, (p.guid, p.team) ∈ s.entered
  distinct : (s.entered.map Prod.fst).Nodup
  belongs : ∀ x ∈ s.entered, (teams.team x.2).isMember x.1 = true
  outside : ∀ x : Guid × Team, x.1 ∉ s.entered.map Prod.fst →
    gamesOf s.arenaTeam x = gamesOf teams.team x ∧ winsOf s.arenaTeam x = winsOf teams.team x
  played : ∀ x ∈ s.entered, gamesOf s.arenaTeam x = gamesOf teams.team x +
    if s.ends = [] ∧ (s.bg.players.get? x.1).isSome then 0 else 1
  won : ∀ x ∈ s.entered, winsOf s.arenaTeam x = winsOf teams.team x +
    if ∃ e ∈ s.ends, x.1 ∈ e.onlineWinners then 1 else 0

variable {teams : Opponents}

theorem Books.ends_nil (h : s.Books teams) (hlate : s.bg.status ≠ .waitLeave) : s.ends = [] :=
  not_not.mp fun hne => hlate (h.finished.mpr hne)

theorem Books.accounted (h : s.Books teams) : s.Accounted teams :=
  { h with
    running := fun e he => (h.ends e he).1
    decided := fun e he => (h.ends e he).2
    games := fun t => (h.games t).trans (Nat.add_le_add_left h.once _) }

theorem Opponents.other (teams : Opponents) (h : (teams.team team).isMember guid = true) :
    (teams.team team.other).isMember guid = false := by
  cases team with
  | alliance => exact teams.disjoint guid h
  | horde =>
    cases ha : (teams.team .alliance).isMember guid with
    | false => exact ha
    | true => exact absurd h (by simp [teams.disjoint guid ha])

variable {x : Guid × Team}

theorem Books.team_eq (h : s.Books teams) (hx : x ∈ s.entered)
    (hp : p ∈ s.bg.players.rows) (hguid : p.guid = x.1) : (p.guid, p.team) = x :=
  inj_on_of_nodup_map h.distinct (h.inside p hp) hx hguid

/-- Counting the entries of one who came in: there is one if he is in, and none if not. -/
theorem Books.countP_entry (h : s.Books teams) (hx : x ∈ s.entered)
    (q : BattlegroundPlayer → Bool) :
    (s.bg.players.rows.countP fun p => (p.guid, p.team) = x ∧ q p) =
      ((s.bg.players.get? x.1).map fun p => if q p then 1 else 0).getD 0 := by
  cases hget : s.bg.players.get? x.1 with
  | none =>
    have hnone := Table.get?_eq_none.mp hget
    rw [map_none, getD_none, countP_eq_zero]
    intro p hp
    simp only [decide_eq_true_eq, not_and]
    exact fun hpx => absurd (congrArg Prod.fst hpx) (hnone p hp)
  | some p =>
    obtain ⟨hp, hguid⟩ := get?_eq_some.mp hget
    have hpx := h.team_eq hx hp hguid
    have hrest : ((s.bg.players.erase x.1).rows.countP fun p => (p.guid, p.team) = x ∧ q p)
        = 0 := by
      rw [countP_eq_zero]
      intro p' hp'
      simp only [decide_eq_true_eq, not_and]
      exact fun hpx' => absurd (congrArg Prod.fst hpx') (mem_rows_erase.mp hp').2
    rw [countP_erase hget, hrest]
    simp [hpx]

/-! ### The end -/

theorem finishGames_games (winner : Option Team) (T : Team → ArenaTeam) (t : Team) :
    (finishGames winner T t).games ≤ (T t).games + 1 := by
  cases winner with
  | none => cases t <;> simp [finishGames, finishGame]
  | some w =>
    cases w <;> cases t <;> simp [finishGames, finishGame, wonAgainst, lostAgainst, Team.other]

theorem finishGames_members (winner : Option Team) (T : Team → ArenaTeam) (t : Team) :
    (finishGames winner T t).members = (T t).members := by
  cases winner with
  | none => cases t <;> simp [finishGames, finishGame]
  | some w =>
    cases w <;> cases t <;> simp [finishGames, finishGame, wonAgainst, lostAgainst, Team.other]

theorem endBattleground_eq (winner : Option Team) (leaving : Option Guid) :
    ∃ teams dead, s.endBattleground winner leaving = { s with
      bg := s.bg.step .endBattleground, arenaTeam := teams, dead := dead
      ends := s.ends ++ [s.endRecord winner leaving] } :=
  foldl_settle_eq winner _ _

theorem bg_endBattleground (winner : Option Team) (leaving : Option Guid) :
    (s.endBattleground winner leaving).bg = s.bg.step .endBattleground := by
  obtain ⟨_, _, heq⟩ := endBattleground_eq (s := s) winner leaving
  rw [heq]

/-- **The end of the match** settles everybody who is in. -/
theorem Books.endBattleground (h : s.Books teams) (hstatus : s.bg.status = .inProgress)
    (hpresent : ∀ p ∈ s.bg.players.rows, p.offlineRemoveTime = 0 → s.bg.inWorld p.guid = true)
    {leaving : Option Guid} (hdraw : winner = none →
      ∀ p ∈ s.bg.players.rows, p.offlineRemoveTime ≠ 0 → p.team = .alliance)
    (hdecided : winner ≠ none → (s.endRecord winner leaving).othersAlive = 0) :
    (s.endBattleground winner leaving).Books teams := by
  have hnil := h.ends_nil (by simp [hstatus])
  have hmember : ∀ t g, (finishGames winner s.arenaTeam t).isMember g =
      (s.arenaTeam t).isMember g := fun t g => by
    simp only [isMember, finishGames_members]
  have hpay : ∀ p ∈ s.bg.players.rows, Payable winner { s with
      bg := s.bg.step .endBattleground
      arenaTeam := finishGames winner s.arenaTeam
      ends := s.ends ++ [s.endRecord winner leaving] } p := by
    intro p hp
    have hbelongs := h.belongs _ (h.inside p hp)
    refine ⟨?_, ?_, hpresent p hp, fun hw => hdraw hw p hp⟩
    · rw [hmember, h.member]
      exact hbelongs
    rw [hmember, h.member]
    exact Opponents.other teams hbelongs
  have htally := foldl_settle_tally s.bg.players.rows hpay
  change (∀ t, ((s.endBattleground winner leaving).arenaTeam t).games = _) ∧
    (∀ t g, ((s.endBattleground winner leaving).arenaTeam t).isMember g = _) ∧
    ∀ x, gamesOf (s.endBattleground winner leaving).arenaTeam x = _ ∧
      winsOf (s.endBattleground winner leaving).arenaTeam x = _ at htally
  obtain ⟨T, dead, heq⟩ := endBattleground_eq (s := s) winner leaving
  rw [heq] at htally ⊢
  obtain ⟨hgames, hmem, htally⟩ := htally
  have hends : s.ends ++ [s.endRecord winner leaving] = [s.endRecord winner leaving] := by
    rw [hnil, nil_append]
  have hsame : ∀ x, gamesOf (finishGames winner s.arenaTeam) x = gamesOf s.arenaTeam x ∧
      winsOf (finishGames winner s.arenaTeam) x = winsOf s.arenaTeam x := fun x => by
    simp only [gamesOf, winsOf, finishGames_members, and_self]
  refine ⟨iff_of_true rfl (by simp), ?_, ?_, fun t => ?_,
    fun t g => (hmem t g).trans ((hmember t g).trans (h.member t g)), h.inside, h.distinct,
    h.belongs, fun x hx => ?_, fun x hx => ?_, fun x hx => ?_⟩
  · exact (congrArg length hends).le
  · rw [hends]
    intro e he
    obtain rfl := mem_singleton.mp he
    exact ⟨hstatus, hdecided⟩
  · rw [hends]
    refine (hgames t).le.trans ((finishGames_games winner _ t).trans ?_)
    have := h.games t
    rw [hnil] at this
    exact Nat.add_le_add_right this 1
  · have hnot : ∀ p ∈ s.bg.players.rows, (p.guid, p.team) ≠ x := fun p hp he =>
      hx (he ▸ mem_map_of_mem (h.inside p hp))
    have hzero : ∀ q : BattlegroundPlayer → Bool,
        (s.bg.players.rows.countP fun p => (p.guid, p.team) = x ∧ q p) = 0 := fun q =>
      countP_eq_zero.mpr fun p hp => by simp [hnot p hp]
    have hgames := hzero fun _ => true
    simp only [and_true] at hgames
    refine ⟨(htally x).1.trans ?_, (htally x).2.trans ?_⟩
    · rw [(hsame x).1, hgames]
      exact (h.outside x hx).1
    rw [(hsame x).2, hzero]
    exact (h.outside x hx).2
  · have hcount := h.countP_entry hx fun _ => true
    simp only [and_true, if_true] at hcount
    have hbefore := h.played x hx
    refine ((htally x).1.trans ?_)
    rw [(hsame x).1, hbefore, hcount, hends, hnil]
    cases hget : s.bg.players.get? x.1 <;> simp
  have hcount := h.countP_entry hx (wonBy winner)
  have hbefore := h.won x hx
  refine ((htally x).2.trans ?_)
  rw [(hsame x).2, hbefore, hcount, hends, hnil]
  have hthere : (∃ e ∈ [s.endRecord winner leaving], x.1 ∈ e.onlineWinners) ↔
      ∃ p, s.bg.players.get? x.1 = some p ∧ wonBy winner p = true := by
    simp only [List.mem_singleton, exists_eq_left, endRecord, List.mem_map, List.mem_filter,
      decide_eq_true_eq, wonBy]
    constructor
    · rintro ⟨p, ⟨hp, hw, ht, -⟩, hguid⟩
      exact ⟨p, get?_eq_some.mpr ⟨hp, hguid⟩, ht, hw⟩
    rintro ⟨p, hget, ht, hw⟩
    obtain ⟨hp, hguid⟩ := get?_eq_some.mp hget
    exact ⟨p, ⟨hp, hw, ht, hpresent p hp ht⟩, hguid⟩
  simp only [hthere]
  cases hget : s.bg.players.get? x.1 with
  | none => simp
  | some p => cases hw : wonBy winner p <;> simp [hw]

/-! ### The test for a winner -/

theorem alive_of_arenaWinner (h : s.arenaWinner = some team) :
    s.getAlivePlayersCountByTeam team.other = 0 := by
  unfold arenaWinner at h
  split_ifs at h with ha hh
  · obtain rfl := some.inj h
    exact ha.1
  obtain rfl := some.inj h
  exact hh.2

theorem othersAlive_le (team : Team) (leaving : Option Guid) :
    (s.endRecord (some team) leaving).othersAlive ≤ s.getAlivePlayersCountByTeam team.other := by
  refine countP_mono_left fun p _ hp => ?_
  simp only [decide_eq_true_eq] at hp ⊢
  exact ⟨Team.ne_iff.mp fun he => hp.1 (congrArg some he), hp.2.1⟩

theorem bg_checkArenaWinConditions (leaving : Option Guid) :
    (s.checkArenaWinConditions leaving).bg = s.bg ∨
      (s.checkArenaWinConditions leaving).bg = s.bg.step .endBattleground := by
  unfold checkArenaWinConditions
  split
  · exact .inr (bg_endBattleground _ _)
  · exact .inl rfl

theorem checkArenaWinConditions_of_none (h : s.arenaWinner = none) (leaving : Option Guid) :
    s.checkArenaWinConditions leaving = s := by rw [Arena.checkArenaWinConditions, h]

theorem Books.checkArenaWinConditions (h : s.Books teams) (hstatus : s.bg.status = .inProgress)
    (hpresent : ∀ p ∈ s.bg.players.rows, p.offlineRemoveTime = 0 → s.bg.inWorld p.guid = true)
    (leaving : Option Guid) : (s.checkArenaWinConditions leaving).Books teams := by
  unfold Arena.checkArenaWinConditions
  split
  · rename_i team hwin
    refine h.endBattleground hstatus hpresent nofun fun _ => ?_
    exact Nat.le_zero.mp ((othersAlive_le team leaving).trans (alive_of_arenaWinner hwin).le)
  · exact h

theorem bg_removePlayer (leaving : Option Guid) : (s.removePlayer leaving).bg = s.bg ∨
      (s.removePlayer leaving).bg = s.bg.step .endBattleground := by
  unfold removePlayer
  split_ifs
  · exact .inl rfl
  · exact bg_checkArenaWinConditions leaving

/-! ### Leaving -/

theorem takeOut_eq (guid : Guid) : s.takeOut guid = { s with
      bg := s.bg.removePlayerAtLeave guid, arenaTeam := (s.takeOut guid).arenaTeam
      dead := (s.takeOut guid).dead } := by
  unfold takeOut recordLeave
  dsimp only
  split <;> split_ifs <;> rfl

theorem bg_takeOut (guid : Guid) : (s.takeOut guid).bg = s.bg.removePlayerAtLeave guid := by
  rw [takeOut_eq]

theorem arenaTeam_takeOut (hget : s.bg.players.get? guid = some p)
    (hlate : s.bg.status ≠ .waitLeave) (hok : s.bg.inWorld guid = true ∨ s.bg.status ≠ .waitJoin) :
    (s.takeOut guid).arenaTeam =
      Function.update s.arenaTeam p.team ((s.arenaTeam p.team).memberLost p.guid) := by
  obtain ⟨hstatus, -, -, hworld⟩ := same_removePlayerAtLeave (s := s.bg) guid
  have hguid : p.guid = guid := (get?_eq_some.mp hget).2
  have hprog : s.bg.inWorld guid = false → s.bg.status = .inProgress := by
    intro hout
    have hjoin := hok.resolve_left (by simp [hout])
    cases hs : s.bg.status with
    | waitJoin => exact absurd hs hjoin
    | inProgress => rfl
    | waitLeave => exact absurd hs hlate
  cases hin : s.bg.inWorld guid with
  | true => simp [takeOut, recordLeave, hget, hworld, hin, hstatus, hlate, hguid]
  | false =>
    simp [takeOut, recordLeave, hget, hworld, hin, hstatus, hprog hin, hguid, offlineMemberLost]

theorem arenaTeam_takeOut_of_none (hget : s.bg.players.get? guid = none) :
    (s.takeOut guid).arenaTeam = s.arenaTeam := by
  unfold takeOut
  rw [hget]
  dsimp only
  split_ifs <;> rfl

theorem arenaTeam_takeOut_of_over (hover : s.bg.status = .waitLeave) :
    (s.takeOut guid).arenaTeam = s.arenaTeam := by
  obtain ⟨hstatus, -, -, -⟩ := same_removePlayerAtLeave (s := s.bg) guid
  unfold takeOut recordLeave
  dsimp only
  split <;> split_ifs <;> simp_all

theorem Books.takeOut (h : s.Books teams)
    (hok : s.bg.inWorld guid = true ∨ s.bg.status ≠ .waitJoin) : (s.takeOut guid).Books teams := by
  have hplayers : (s.takeOut guid).bg.players = s.bg.players.erase guid := by
    rw [bg_takeOut]
    exact players_removePlayerAtLeave guid
  have hget' : ∀ g, (s.takeOut guid).bg.players.get? g =
      if g = guid then none else s.bg.players.get? g := fun g => by
    rw [hplayers]
    exact get?_erase g
  -- the parts that speak of the records, from what happened to them
  have hrecords : (∀ t, ((s.takeOut guid).arenaTeam t).games = (s.arenaTeam t).games) ∧
      (∀ t g, ((s.takeOut guid).arenaTeam t).isMember g = (s.arenaTeam t).isMember g) ∧
      (∀ x : Guid × Team, x.1 ∉ s.entered.map Prod.fst →
        gamesOf (s.takeOut guid).arenaTeam x = gamesOf s.arenaTeam x ∧
          winsOf (s.takeOut guid).arenaTeam x = winsOf s.arenaTeam x) ∧
      ∀ x ∈ s.entered, gamesOf (s.takeOut guid).arenaTeam x = gamesOf teams.team x +
          (if s.ends = [] ∧ ((s.takeOut guid).bg.players.get? x.1).isSome then 0 else 1) ∧
        winsOf (s.takeOut guid).arenaTeam x = winsOf s.arenaTeam x := by
    by_cases hover : s.bg.status = .waitLeave
    · have hne := h.finished.mp hover
      rw [arenaTeam_takeOut_of_over hover]
      refine ⟨fun _ => rfl, fun _ _ => rfl, fun _ _ => ⟨rfl, rfl⟩, fun x hx => ⟨?_, rfl⟩⟩
      have := h.played x hx
      rwa [if_neg fun hc => hne hc.1] at this ⊢
    have hnil := h.ends_nil hover
    cases hget : s.bg.players.get? guid with
    | none =>
      rw [arenaTeam_takeOut_of_none hget]
      refine ⟨fun _ => rfl, fun _ _ => rfl, fun _ _ => ⟨rfl, rfl⟩, fun x hx => ⟨?_, rfl⟩⟩
      have hsame : (s.takeOut guid).bg.players.get? x.1 = s.bg.players.get? x.1 := by
        rw [hget']
        split_ifs with hx'
        · rw [hx', hget]
        · rfl
      rw [hsame]
      exact h.played x hx
    | some p =>
      obtain ⟨hp, hguid⟩ := get?_eq_some.mp hget
      have hmem : (s.arenaTeam p.team).isMember p.guid = true := by
        rw [h.member]
        exact h.belongs _ (h.inside p hp)
      rw [arenaTeam_takeOut hget hover hok]
      refine ⟨games_rewrite, isMember_rewrite, fun x hx => ?_, fun x hx => ?_⟩
      · obtain ⟨hgames, hwins⟩ := tally_memberLost hmem x
        have hpx : (p.guid, p.team) ≠ x := fun he =>
          hx (he ▸ mem_map_of_mem (h.inside p hp))
        rw [if_neg hpx, Nat.add_zero] at hgames
        exact ⟨hgames, hwins⟩
      obtain ⟨hgames, hwins⟩ := tally_memberLost hmem x
      refine ⟨?_, hwins⟩
      rw [hgames, h.played x hx, hget']
      by_cases hx' : x.1 = guid
      · have hpx := h.team_eq hx hp (hguid.trans hx'.symm)
        rw [hx', hget, if_pos hpx]
        simp [hnil]
      have hpx : (p.guid, p.team) ≠ x := fun he => hx' ((congrArg Prod.fst he).symm.trans hguid)
      rw [if_neg hpx, if_neg hx', Nat.add_zero]
  obtain ⟨hgames, hmember, houtside, hrecord⟩ := hrecords
  have hinside : ∀ p ∈ (s.takeOut guid).bg.players.rows, (p.guid, p.team) ∈ s.entered := by
    rw [hplayers]
    exact fun p hp => h.inside p (mem_rows_erase.mp hp).1
  have hfinished := h.finished
  rw [← (same_removePlayerAtLeave guid).1] at hfinished
  rw [takeOut_eq] at hgames hmember houtside hrecord hinside ⊢
  exact ⟨hfinished, h.once, h.ends, fun t => (hgames t).le.trans (h.games t),
    fun t g => (hmember t g).trans (h.member t g), hinside, h.distinct, h.belongs,
    fun x hx => ⟨(houtside x hx).1.trans (h.outside x hx).1,
      (houtside x hx).2.trans (h.outside x hx).2⟩,
    fun x hx => (hrecord x hx).1, fun x hx => (hrecord x hx).2.trans (h.won x hx)⟩

/-! ### Between two requests -/

variable {b : Battleground}

theorem Books.with_bg {getTeam : Guid → Team} (h : s.Books teams) (hstatus : b.status = s.bg.status)
    (hinside : ∀ p ∈ b.players.rows, (p.guid, p.team) ∈ s.entered)
    (hsome : ∀ g, (b.players.get? g).isSome = (s.bg.players.get? g).isSome) :
    Books teams { s with bg := b, getTeam := getTeam } :=
  { h with
    finished := by
      show b.status = _ ↔ _
      rw [hstatus]
      exact h.finished
    inside := hinside
    played := fun x hx => by
      show _ = _ + if s.ends = [] ∧ (b.players.get? x.1).isSome then 0 else 1
      rw [hsome]
      exact h.played x hx }

/-- The offline times of the entries are not in the books. -/
theorem Books.with_offline {getTeam : Guid → Team} {time : ℕ} (h : s.Books teams)
    (hstatus : b.status = s.bg.status)
    (hplayers : b.players = setOfflineRemoveTime s.bg.players guid time) :
    Books teams { s with bg := b, getTeam := getTeam } := by
  refine h.with_bg hstatus (fun p hp => ?_) fun g => ?_
  · rw [hplayers] at hp
    rcases (mem_rows_modify _).mp hp with ⟨hp, -⟩ | ⟨a, ha, -, rfl⟩
    · exact h.inside p hp
    · exact h.inside a ha
  rw [hplayers, get?_setOfflineRemoveTime]
  split_ifs
  · rw [isSome_map]
  · rfl

/-- What holds between two requests. -/
structure Kept (teams : Opponents) (s : Arena) : Prop where
  books : s.Books teams
  roster : s.bg.Inv

theorem present_of_inv (h : b.Inv)
    (hp : p ∈ b.players.rows) (hon : p.offlineRemoveTime = 0) : b.inWorld p.guid = true := by
  by_contra hout
  exact (h.online p hp).mpr (by simpa using hout) hon

theorem present_takeOut (h : s.bg.Inv) (guid : Guid) :
    ∀ p ∈ (s.takeOut guid).bg.players.rows, p.offlineRemoveTime = 0 →
      (s.takeOut guid).bg.inWorld p.guid = true := by
  rw [bg_takeOut guid, players_removePlayerAtLeave, (same_removePlayerAtLeave guid).2.2.2]
  exact fun p hp hon => present_of_inv h (mem_rows_erase.mp hp).1 hon

theorem arenaWinner_takeOut (guid : Guid) :
    (s.takeOut guid).arenaWinner = (s.without guid).arenaWinner := by
  have hbg := bg_takeOut (s := s) guid
  have halive : ∀ t, (s.takeOut guid).getAlivePlayersCountByTeam t =
      (s.without guid).getAlivePlayersCountByTeam t := by
    intro t
    have hdead : ∀ g, g ≠ guid → (s.takeOut guid).dead g = s.dead g := by
      intro g hg
      unfold takeOut recordLeave
      dsimp only
      split <;> split_ifs <;> simp [hg]
    unfold getAlivePlayersCountByTeam isAlive
    rw [hbg]
    refine countP_congr fun p hp => ?_
    have hne : p.guid ≠ guid := by
      rw [players_removePlayerAtLeave] at hp
      exact (mem_rows_erase.mp hp).2
    rw [hdead _ hne]
    exact Iff.rfl
  unfold arenaWinner
  rw [halive, halive, hbg]
  rfl

theorem Books.removePlayerAtLeave (h : s.Books teams) (hinv : s.bg.Inv)
    (hok : s.bg.inWorld guid = true ∨ s.bg.status ≠ .waitJoin)
    (hreg : s.bg.status = .waitJoin → (s.without guid).arenaWinner = none) :
    (s.removePlayerAtLeave guid).Books teams := by
  have hbooks := h.takeOut hok
  have hstatus : (s.takeOut guid).bg.status = s.bg.status := by
    rw [bg_takeOut guid]
    exact (same_removePlayerAtLeave guid).1
  unfold Arena.removePlayerAtLeave removePlayer
  rw [hstatus]
  split_ifs with hover
  · exact hbooks
  cases hs : s.bg.status with
  | waitJoin =>
    have hwin := hreg hs
    rw [← arenaWinner_takeOut] at hwin
    rwa [checkArenaWinConditions_of_none hwin]
  | inProgress =>
    exact hbooks.checkArenaWinConditions (hstatus.trans hs) (present_takeOut hinv guid) none
  | waitLeave => exact absurd hs hover

theorem bg_removePlayerAtLeave (guid : Guid) :
    (s.removePlayerAtLeave guid).bg = s.bg.removePlayerAtLeave guid ∨
      (s.removePlayerAtLeave guid).bg = (s.bg.removePlayerAtLeave guid).step .endBattleground := by
  have h := bg_removePlayer (s := s.takeOut guid) none
  rwa [bg_takeOut guid] at h

theorem inv_of_ended {b' : Battleground} (h : b.Inv)
    (hor : b' = b ∨ b' = b.step .endBattleground) : b'.Inv := by
  rcases hor with rfl | rfl
  · exact h
  · exact h.step trivial

theorem Kept.removePlayerAtLeave (h : s.Kept teams)
    (hok : s.bg.inWorld guid = true ∨ s.bg.status = .waitLeave)
    (hreg : s.bg.status = .waitJoin → (s.without guid).arenaWinner = none) :
    (s.removePlayerAtLeave guid).Kept teams := by
  have hinv : (s.bg.removePlayerAtLeave guid).Inv := by
    rcases hok with hin | hover
    · exact h.roster.removePlayerAtLeave hin
    have := h.roster.remove guid s.bg.offlineQueue fun hne => absurd hover hne
    rwa [← (same_removePlayerAtLeave guid).2.1] at this
  refine ⟨h.books.removePlayerAtLeave h.roster (hok.imp_right fun hover => ?_) hreg, ?_⟩
  · rw [hover]
    exact Status.noConfusion
  exact inv_of_ended hinv (bg_removePlayerAtLeave guid)

theorem Kept.addPlayer (h : s.Kept teams) (hr : s.Allowed (.addPlayer guid team))
    (hreg : s.Regular (.addPlayer guid team)) : (s.addPlayer guid team).Kept teams := by
  obtain ⟨hin, hnone, hnew, hmem⟩ := hr
  have hb := h.books
  have hnil := hb.ends_nil hreg
  have hplayers : (s.addPlayer guid team).bg.players = s.bg.players.put ⟨guid, 0, team⟩ := rfl
  refine ⟨⟨hb.finished, hb.once, hb.ends, hb.games, hb.member, ?_, ?_, ?_, ?_, ?_, ?_⟩,
    h.roster.addPlayer hin hnone team⟩
  · rw [hplayers]
    intro p hp
    rcases mem_rows_put.mp hp with rfl | ⟨hp, -⟩
    · exact mem_cons_self
    · exact mem_cons_of_mem _ (hb.inside p hp)
  · exact nodup_cons.mpr ⟨hnew, hb.distinct⟩
  · intro x hx
    rcases mem_cons.mp hx with rfl | hx
    · rw [← hb.member]
      exact hmem
    · exact hb.belongs x hx
  · exact fun x hx => hb.outside x fun hmem => hx (mem_cons_of_mem _ hmem)
  · intro x hx
    rw [hplayers]
    show gamesOf s.arenaTeam x = _ + if s.ends = [] ∧ _ then 0 else 1
    rcases mem_cons.mp hx with rfl | hx
    · -- the game of a newcomer is still to come
      rw [(hb.outside _ hnew).1, get?_put, if_pos rfl]
      simp [hnil]
    have hne : x.1 ≠ guid := fun he => hnew (he ▸ mem_map_of_mem hx)
    rw [get?_put, if_neg hne]
    exact hb.played x hx
  intro x hx
  rcases mem_cons.mp hx with rfl | hx
  · have hends : (s.addPlayer guid team).ends = [] := hnil
    rw [if_neg (by simp [hends])]
    exact (hb.outside _ hnew).2
  · exact hb.won x hx

/-! ### Logging out -/

theorem queueOffline_of_some (h : b.players.get? guid = some p) : b.queueOffline guid = { b with
      offlineQueue := b.offlineQueue ++ [guid]
      players := setOfflineRemoveTime b.players guid (b.gameTime + maxOfflineTime) } := by
  simp [queueOffline, h]

theorem countP_queueOffline (guid : Guid) (q : Guid → Team → Bool) :
    ((b.queueOffline guid).players.rows.countP fun p => q p.guid p.team) =
      b.players.rows.countP fun p => q p.guid p.team := by
  unfold queueOffline
  split_ifs
  · exact countP_setOfflineRemoveTime _ _ _ q
  · rfl

theorem playersCount_queueOffline (guid : Guid) :
    (b.queueOffline guid).playersCount = b.playersCount ∧
      (b.queueOffline guid).inWorld = b.inWorld ∧ (b.queueOffline guid).status = b.status := by
  unfold queueOffline
  split_ifs <;> exact ⟨rfl, rfl, rfl⟩

/-- The arena while a player is logging out. -/
def queued (s : Arena) (guid : Guid) : Arena := { s with bg := s.bg.queueOffline guid }

theorem isAlive_queued (guid g : Guid) : (s.queued guid).isAlive g = s.isAlive g := by
  simp only [isAlive, queued, (playersCount_queueOffline guid).2.1]

theorem alive_queued (guid : Guid) (team : Team) :
    (s.queued guid).getAlivePlayersCountByTeam team = s.getAlivePlayersCountByTeam team := by
  unfold getAlivePlayersCountByTeam
  simp only [isAlive_queued]
  exact countP_queueOffline guid fun g t => decide (t = team ∧ s.isAlive g = true)

theorem arenaWinner_queued (guid : Guid) : (s.queued guid).arenaWinner = s.arenaWinner := by
  have hcount : (s.queued guid).bg.playersCount = s.bg.playersCount :=
    (playersCount_queueOffline guid).1
  unfold arenaWinner
  rw [alive_queued, alive_queued, hcount]

theorem Books.queued (h : s.Books teams) (guid : Guid) : (s.queued guid).Books teams := by
  cases hget : s.bg.players.get? guid with
  | none =>
    have hsame : s.queued guid = s := by simp [Arena.queued, queueOffline, hget]
    rwa [hsame]
  | some p =>
    refine h.with_offline (playersCount_queueOffline guid).2.2
      (congrArg players (queueOffline_of_some hget))

theorem present_queued (h : s.bg.Inv) {p0 : BattlegroundPlayer}
    (hget : s.bg.players.get? guid = some p0) :
    ∀ p ∈ (s.queued guid).bg.players.rows, p.offlineRemoveTime = 0 →
      (s.queued guid).bg.inWorld p.guid = true := by
  intro p hp hon
  show (s.bg.queueOffline guid).inWorld p.guid = true
  rw [(playersCount_queueOffline guid).2.1]
  have hp : p ∈ (s.bg.queueOffline guid).players.rows := hp
  rw [queueOffline_of_some hget] at hp
  rcases mem_setOfflineRemoveTime hp with ⟨hp, -⟩ | ⟨-, htime⟩
  · exact present_of_inv h hp hon
  rw [hon] at htime
  exact absurd htime (by simp [maxOfflineTime])

theorem dead_foldl_settle (winner : Option Team) (l : List BattlegroundPlayer) (s : Arena) (g : Guid) :
    ((l.foldl (settle winner) s).dead g = true → s.dead g = true) ∧
      ((∃ p ∈ l, p.guid = g ∧ p.offlineRemoveTime = 0 ∧ s.bg.inWorld g = true) →
        (l.foldl (settle winner) s).dead g = false) := by
  have hstep : ∀ (s : Arena) (p : BattlegroundPlayer), (settle winner s p).dead =
      if p.offlineRemoveTime = 0 ∧ s.bg.inWorld p.guid = true then
        Function.update s.dead p.guid false else s.dead := by
    intro s p
    unfold settle
    dsimp only
    split_ifs <;> simp_all
  induction l generalizing s with
  | nil => exact ⟨id, by simp⟩
  | cons p l ih =>
    obtain ⟨hmono, hraise⟩ := ih (settle winner s p)
    have hdead : (settle winner s p).dead g = true → s.dead g = true := by
      rw [hstep]
      split_ifs
      · by_cases hg : g = p.guid
        · subst hg
          simp
        rw [update_of_ne hg]
        exact id
      · exact id
    refine ⟨fun h => hdead (hmono h), ?_⟩
    rintro ⟨q, hq, rfl, htime, hin⟩
    rcases mem_cons.mp hq with rfl | hq
    · -- he is raised now, and nobody is killed later
      by_contra hne
      have := hmono (by simpa using hne)
      rw [hstep, if_pos ⟨htime, hin⟩, update_self] at this
      cases this
    · exact hraise ⟨q, hq, rfl, htime, by rwa [bg_settle]⟩

theorem standing_le (h : s.bg.Inv)
    (hget : s.bg.players.get? guid = some p) (winner : Option Team) (leaving : Option Guid) :
    s.standing guid team ≤
      ((s.queued guid).endBattleground winner leaving).getAlivePlayersCountByTeam team := by
  set s' := (s.queued guid).endBattleground winner leaving with hs'
  have hbg : s'.bg = (s.queued guid).bg.step .endBattleground := bg_endBattleground _ _
  have hplayers : s'.bg.players = (s.bg.queueOffline guid).players := by
    rw [hbg]
    rfl
  have hworld : s'.bg.inWorld = s.bg.inWorld := by
    rw [hbg]
    exact (playersCount_queueOffline guid).2.1
  have hcount : s'.getAlivePlayersCountByTeam team =
      s.bg.players.rows.countP fun q => q.team = team ∧ s'.isAlive q.guid := by
    unfold getAlivePlayersCountByTeam
    rw [hplayers]
    exact countP_queueOffline guid fun g t => decide (t = team ∧ s'.isAlive g = true)
  rw [hcount]
  refine countP_mono_left fun q hq hstand => ?_
  simp only [decide_eq_true_eq] at hstand ⊢
  obtain ⟨hteam, hin, hor⟩ := hstand
  refine ⟨hteam, ?_⟩
  obtain ⟨hmono, hraise⟩ := dead_foldl_settle winner (s.bg.queueOffline guid).players.rows
    { s.queued guid with
      bg := (s.queued guid).bg.step .endBattleground
      arenaTeam := finishGames winner s.arenaTeam
      ends := s.ends ++ [(s.queued guid).endRecord winner leaving] } q.guid
  have hdead : s'.dead q.guid = false := by
    by_cases hne : q.guid = guid
    · by_contra hd
      rw [Bool.not_eq_false] at hd
      have hbefore : s.dead q.guid = true := hmono hd
      rw [hor.resolve_left (not_not.mpr hne)] at hbefore
      cases hbefore
    refine hraise ⟨q, ?_, rfl, ?_, ?_⟩
    · rw [queueOffline_of_some hget]
      show q ∈ (setOfflineRemoveTime s.bg.players guid _).rows
      exact (mem_rows_modify _).mpr (.inl ⟨hq, hne⟩)
    · by_contra ht
      exact absurd ((h.online q hq).mp ht) (by simp [hin])
    show (s.bg.queueOffline guid).inWorld q.guid = true
    rw [(playersCount_queueOffline guid).2.1]
    exact hin
  unfold isAlive
  rw [hworld, hdead, hin]
  rfl

theorem othersAlive_of_last (hget : s.bg.players.get? guid = some p)
    (hin : s.bg.inWorld guid = true) (hlast : s.getAlivePlayersCountByTeam team ≤ 1)
    (hreg : (p.team = team → s.dead guid = true) → s.getAlivePlayersCountByTeam team ≠ 1) :
    ((s.queued guid).endRecord (some team.other) (some guid)).othersAlive = 0 := by
  obtain ⟨hp, hguid⟩ := get?_eq_some.mp hget
  have hcount : ((s.queued guid).endRecord (some team.other) (some guid)).othersAlive =
      s.bg.players.rows.countP fun q =>
        some q.team ≠ some team.other ∧ s.isAlive q.guid ∧ some q.guid ≠ some guid := by
    unfold endRecord
    simp only [isAlive_queued]
    exact countP_queueOffline guid fun g t =>
      decide (some t ≠ some team.other ∧ s.isAlive g = true ∧ some g ≠ some guid)
  have hothers : (s.bg.players.rows.countP fun q =>
      some q.team ≠ some team.other ∧ s.isAlive q.guid ∧ some q.guid ≠ some guid) ≤
        (s.bg.players.erase guid).rows.countP fun q => q.team = team ∧ s.isAlive q.guid := by
    rw [countP_erase hget, if_neg (by simp [hguid]), Nat.zero_add]
    refine countP_mono_left fun q _ hq => ?_
    simp only [decide_eq_true_eq] at hq ⊢
    refine ⟨?_, hq.2.1⟩
    have := Team.ne_iff.mp fun he => hq.1 (congrArg some he)
    rw [this]
    cases team <;> rfl
  have hteam : s.getAlivePlayersCountByTeam team =
      (if p.team = team ∧ s.isAlive p.guid then 1 else 0) +
        (s.bg.players.erase guid).rows.countP fun q => q.team = team ∧ s.isAlive q.guid := by
    unfold getAlivePlayersCountByTeam
    rw [countP_erase hget]
    simp
  by_cases hlive : p.team = team ∧ s.dead guid = false
  · -- he is the one alive of the team
    have halive : s.isAlive p.guid = true := by simp [isAlive, hguid, hin, hlive.2]
    rw [if_pos ⟨hlive.1, halive⟩] at hteam
    omega
  have hne := hreg fun ht => by
    simpa using fun hd => hlive ⟨ht, hd⟩
  omega

theorem Kept.eventPlayerLoggedOut (h : s.Kept teams) (hin : s.bg.inWorld guid = true)
    (hreg : s.Regular (.eventPlayerLoggedOut guid)) : (s.eventPlayerLoggedOut guid).Kept teams := by
  have hinv := h.roster.eventPlayerLoggedOut hin
  -- whatever happens on the way, the player is out of the world in the end
  have hvanish : ∀ s' : Arena, s'.Books teams →
      (s'.bg = s.bg.queueOffline guid ∨ s'.bg = (s.bg.queueOffline guid).step .endBattleground) →
      Kept teams { s' with bg := s'.bg.vanish guid } := by
    intro s' hb hbg
    refine ⟨hb.with_bg rfl hb.inside fun _ => rfl, ?_⟩
    exact inv_of_ended hinv (hbg.imp (congrArg (vanish · guid)) (congrArg (vanish · guid)))
  unfold Arena.eventPlayerLoggedOut
  cases hget : s.bg.players.get? guid with
  | none =>
    have hsame : s.bg.queueOffline guid = s.bg := by simp [queueOffline, hget]
    exact hvanish s h.books (.inl hsame.symm)
  | some p =>
    have hstatus := (playersCount_queueOffline (b := s.bg) guid).2.2
    have hbooks := h.books.queued guid
    show Kept teams { (if (s.queued guid).bg.status = .inProgress then
        ((s.queued guid).removePlayer (some guid)).endIfLast guid else s.queued guid) with
      bg := vanish (if (s.queued guid).bg.status = .inProgress then
        ((s.queued guid).removePlayer (some guid)).endIfLast guid else s.queued guid).bg guid }
    by_cases hprog : (s.queued guid).bg.status = .inProgress
    · rw [if_pos hprog]
      have hprog' : s.bg.status = .inProgress := hstatus.symm.trans hprog
      have hreg' := hreg p hget hprog'
      have hpresent := present_queued h.roster hget
      have hcheck : (s.queued guid).removePlayer (some guid) =
          (s.queued guid).checkArenaWinConditions (some guid) := if_neg (by simp [hprog])
      rw [hcheck]
      cases hwin : s.arenaWinner with
      | none =>
        rw [checkArenaWinConditions_of_none ((arenaWinner_queued guid).trans hwin)]
        unfold endIfLast
        rw [alive_queued]
        split_ifs with hlast
        · have hother : s.bg.playersCount (s.getTeam guid).other ≠ 0 := by
            have := hlast.2
            rwa [show (s.queued guid).bg.playersCount = s.bg.playersCount from
              (playersCount_queueOffline guid).1] at this
          have hr := hreg' hother
          rw [if_pos hwin] at hr
          refine hvanish _ (hbooks.endBattleground hprog hpresent
            (fun h => by cases h) fun _ => ?_) (.inr (bg_endBattleground _ _))
          exact othersAlive_of_last hget hin hlast.1 hr
        · exact hvanish _ hbooks (.inl rfl)
      | some team =>
        have hends : (s.queued guid).checkArenaWinConditions (some guid) =
            (s.queued guid).endBattleground (some team) (some guid) := by
          unfold checkArenaWinConditions
          rw [arenaWinner_queued, hwin]
        have hb := hbooks.checkArenaWinConditions hprog hpresent (some guid)
        rw [hends] at hb ⊢
        have hbg := bg_endBattleground (s := s.queued guid) (some team) (some guid)
        -- the second test finds too many alive
        have hno : ((s.queued guid).endBattleground (some team) (some guid)).endIfLast guid =
            (s.queued guid).endBattleground (some team) (some guid) := by
          refine if_neg fun hlast => ?_
          obtain ⟨_, _, heq⟩ :=
            endBattleground_eq (s := s.queued guid) (some team) (some guid)
          rw [congrArg getTeam heq] at hlast
          have hother : s.bg.playersCount (s.getTeam guid).other ≠ 0 := by
            have := hlast.2
            rw [hbg] at this
            rwa [show ((s.queued guid).bg.step .endBattleground).playersCount =
              s.bg.playersCount from (playersCount_queueOffline guid).1] at this
          have hr := hreg' hother
          rw [if_neg (by simp [hwin])] at hr
          exact absurd hlast.1 (Nat.not_le.mpr
            (hr.trans_le (standing_le h.roster hget (some team) (some guid))))
        rw [hno]
        exact hvanish _ hb (.inr hbg)
    rw [if_neg hprog]
    exact hvanish _ hbooks (.inl rfl)

/-! ### The other requests -/

theorem Kept.eventPlayerLoggedIn (h : s.Kept teams) (hsome : (s.bg.players.get? guid).isSome = true) :
    (s.eventPlayerLoggedIn guid).Kept teams :=
  ⟨h.books.with_offline rfl rfl, h.roster.eventPlayerLoggedIn hsome⟩

theorem Books.with_dead (h : s.Books teams) (dead : Guid → Bool) (time : ℕ) :
    Books teams { s with dead := dead, elapsedTime := time } :=
  { h with }

section

variable (h : s.Kept teams)

include h

theorem Kept.checkArenaWinConditions (hstatus : s.bg.status = .inProgress) :
    (s.checkArenaWinConditions none).Kept teams := by
  exact ⟨h.books.checkArenaWinConditions hstatus (fun p hp => present_of_inv h.roster hp) none,
    inv_of_ended h.roster (bg_checkArenaWinConditions none)⟩

theorem Kept.kill (victim : Guid) (byPlayer : Bool) : (s.kill victim byPlayer).Kept teams := by
  have hdead : Kept teams { s with dead := Function.update s.dead victim true } :=
    ⟨h.books.with_dead _ s.elapsedTime, h.roster⟩
  unfold Arena.kill
  dsimp only
  split_ifs with hc
  · exact hdead.checkArenaWinConditions hc.2
  · exact hdead

theorem Kept.start (hstatus : s.bg.status = .waitJoin) :
    Kept teams { s with bg := s.bg.step .start } ∧ (s.bg.step .start).status = .inProgress := by
  have hstart : s.bg.step .start = { s.bg with status := .inProgress } := if_pos hstatus
  have hb := h.books
  refine ⟨⟨⟨?_, hb.once, hb.ends, hb.games, hb.member, ?_, hb.distinct, hb.belongs, hb.outside,
    ?_, hb.won⟩, h.roster.step (r := .start) trivial⟩, by rw [hstart]⟩
  · show (s.bg.step .start).status = .waitLeave ↔ _
    rw [hstart, ← hb.finished, hstatus]
    exact iff_of_false Status.noConfusion Status.noConfusion
  · show ∀ p ∈ (s.bg.step .start).players.rows, _
    rw [hstart]
    exact hb.inside
  intro x hx
  show _ = _ + if s.ends = [] ∧ ((s.bg.step .start).players.get? x.1).isSome then 0 else 1
  rw [hstart]
  exact hb.played x hx

theorem Kept.foldl_removePlayerAtLeave (hover : s.bg.status = .waitLeave)
    (guids : List Guid) : (guids.foldl Arena.removePlayerAtLeave s).Kept teams := by
  induction guids generalizing s with
  | nil => exact h
  | cons g guids ih =>
    refine ih (h.removePlayerAtLeave (.inr hover) fun hjoin => ?_) ?_
    · rw [hover] at hjoin
      cases hjoin
    rcases bg_removePlayerAtLeave (s := s) g with hbg | hbg <;> rw [hbg]
    · exact (same_removePlayerAtLeave g).1.trans hover
    · rfl

theorem Kept.processLeave (hover : s.bg.status = .waitLeave) (diff : ℕ) :
    (s.processLeave diff).Kept teams := by
  have hclose : Kept teams { s with bg := s.bg.countDown diff } :=
    ⟨h.books.with_bg rfl h.books.inside fun _ => rfl,
      ⟨h.roster.count, h.roster.online, h.roster.past, fun hne => absurd hover hne⟩⟩
  unfold Arena.processLeave
  dsimp only
  split_ifs
  · exact hclose.foldl_removePlayerAtLeave hover _
  · exact hclose

end

theorem elapsedTime_removePlayerAtLeave (guid : Guid) :
    (s.removePlayerAtLeave guid).elapsedTime = s.elapsedTime := by
  have htake : (s.takeOut guid).elapsedTime = s.elapsedTime := by rw [takeOut_eq]
  unfold removePlayerAtLeave removePlayer checkArenaWinConditions
  split_ifs
  · exact htake
  split
  · rename_i team _
    obtain ⟨_, _, heq⟩ := endBattleground_eq (s := s.takeOut guid) (some team) none
    rw [heq]
    exact htake
  · exact htake

theorem processOfflineQueue_eq (s : Arena) : (s.dueMember = none ∧ s.processOfflineQueue = s) ∨
      ∃ guid queue p, s.dueMember = some guid ∧ s.bg.offlineQueue = guid :: queue ∧
        s.bg.players.get? guid = some p ∧ p.offlineRemoveTime ≤ s.bg.gameTime ∧
          s.processOfflineQueue = { s.removePlayerAtLeave guid with
            bg := { (s.removePlayerAtLeave guid).bg with offlineQueue := queue } } := by
  unfold dueMember processOfflineQueue
  cases hq : s.bg.offlineQueue with
  | nil => exact .inl ⟨rfl, rfl⟩
  | cons guid queue =>
    cases hget : s.bg.players.get? guid with
    | none => exact .inl ⟨by simp [hget], by simp only [hget]⟩
    | some p =>
      by_cases hdue : p.offlineRemoveTime ≤ s.bg.gameTime
      · exact .inr ⟨guid, queue, p, by simp [hget, hdue], rfl, hget, hdue,
          by simp only [hget, if_pos hdue]⟩
      · exact .inl ⟨by simpa [hget] using hdue, by simp only [hget, if_neg hdue]⟩

theorem Kept.processOfflineQueue (h : s.Kept teams) (hprog : s.bg.status = .inProgress) :
    s.processOfflineQueue.Kept teams := by
  rcases processOfflineQueue_eq s with ⟨-, heq⟩ | ⟨guid, queue, p, -, hq, hget, hdue, heq⟩
  · rw [heq]
    exact h
  have hjoin : s.bg.status ≠ .waitJoin := by simp [hprog]
  have hb : (s.removePlayerAtLeave guid).Books teams :=
    h.books.removePlayerAtLeave h.roster (.inr hjoin) fun hs => absurd hs hjoin
  have hinv := h.roster.processOfflineQueue
  have hroster : s.bg.processOfflineQueue =
      { s.bg.removePlayerAtLeave guid with offlineQueue := queue } := by
    simp only [Battleground.processOfflineQueue, hq, hget, if_pos hdue]
  rw [hroster] at hinv
  rw [heq]
  refine ⟨hb.with_bg rfl hb.inside fun _ => rfl, ?_⟩
  refine inv_of_ended hinv ?_
  rcases bg_removePlayerAtLeave (s := s) guid with hbg | hbg <;> rw [hbg]
  · exact .inl rfl
  · exact .inr rfl

theorem Kept.endAtLimit (h : s.Kept teams) (hprog : s.bg.status = .inProgress)
    (hdraw : ∀ p ∈ s.bg.players.rows, p.offlineRemoveTime ≠ 0 → p.team = .alliance) :
    (s.endBattleground none none).Kept teams := by
  refine ⟨h.books.endBattleground hprog (fun p hp => present_of_inv h.roster hp) (fun _ => hdraw)
    fun hne => absurd rfl hne, ?_⟩
  exact inv_of_ended h.roster (.inr (bg_endBattleground _ _))

theorem limit_after_processOfflineQueue (hprog : s.bg.status = .inProgress)
    (hwin : ∀ guid ∈ s.dueMember, (s.without guid).arenaWinner = none)
    (hdraw : ∀ p ∈ s.bg.players.rows, p.offlineRemoveTime ≠ 0 → some p.guid ≠ s.dueMember →
      p.team = .alliance) : s.processOfflineQueue.bg.status = .inProgress ∧
      ∀ p ∈ s.processOfflineQueue.bg.players.rows, p.offlineRemoveTime ≠ 0 →
        p.team = .alliance := by
  rcases processOfflineQueue_eq s with ⟨hnone, heq⟩ | ⟨guid, queue, p, hsome, -, -, -, heq⟩
  · rw [heq]
    exact ⟨hprog, fun p hp ht => hdraw p hp ht (by simp [hnone])⟩
  have hbg := bg_takeOut (s := s) guid
  have hstatus : (s.takeOut guid).bg.status = .inProgress := by
    rw [hbg]
    exact (same_removePlayerAtLeave guid).1.trans hprog
  have hsame : s.removePlayerAtLeave guid = s.takeOut guid := by
    unfold removePlayerAtLeave removePlayer
    rw [if_neg (by simp [hstatus])]
    exact checkArenaWinConditions_of_none ((arenaWinner_takeOut guid).trans (hwin guid hsome)) none
  rw [heq, hsame]
  refine ⟨hstatus, fun p hp ht => ?_⟩
  rw [hbg, players_removePlayerAtLeave] at hp
  obtain ⟨hp, hne⟩ := mem_rows_erase.mp hp
  exact hdraw p hp ht (by rw [hsome]; exact fun he => hne (some.inj he))

theorem elapsedTime_processOfflineQueue (s : Arena) :
    s.processOfflineQueue.elapsedTime = s.elapsedTime := by
  rcases processOfflineQueue_eq s with ⟨-, heq⟩ | ⟨guid, queue, p, -, -, -, -, heq⟩
  · rw [heq]
  rw [heq]
  exact elapsedTime_removePlayerAtLeave guid

theorem Kept.update (h : s.Kept teams) {diff : ℕ} {opens : Bool}
    (hreg : s.Regular (.update diff opens)) : (s.update diff opens).Kept teams := by
  have htick : ∀ s' : Arena, s'.Kept teams →
      Kept teams { s' with elapsedTime := s'.elapsedTime + diff } := fun s' h' =>
    ⟨h'.books.with_dead s'.dead _, h'.roster⟩
  unfold Arena.update
  by_cases hnil : s.bg.players.rows = []
  · rw [if_pos hnil]
    exact h
  rw [if_neg hnil]
  cases hstatus : s.bg.status with
  | waitJoin =>
    split_ifs
    · obtain ⟨hstart, hprog⟩ := h.start hstatus
      exact htick _ (hstart.checkArenaWinConditions hprog)
    · exact htick _ h
  | inProgress =>
    have hqueue := h.processOfflineQueue hstatus
    dsimp only
    split_ifs with hlimit
    · rw [elapsedTime_processOfflineQueue] at hlimit
      obtain ⟨hwin, hdraw⟩ := hreg hstatus hlimit
      obtain ⟨hprog, hdraw'⟩ := limit_after_processOfflineQueue hstatus hwin hdraw
      exact hqueue.endAtLimit hprog hdraw'
    · exact htick _ hqueue
  | waitLeave => exact htick _ (h.processLeave hstatus diff)

theorem Kept.fresh (teams : Opponents) (gameTime : ℕ) (inWorld dead : Guid → Bool)
    (getOTeam : Guid → Team) : (Arena.fresh teams gameTime inWorld dead getOTeam).Kept teams := by
  refine ⟨⟨?_, Nat.zero_le _, ?_, fun t => Nat.le_refl _, fun _ _ => rfl, ?_, nodup_nil, ?_,
    fun _ _ => ⟨rfl, rfl⟩, ?_, ?_⟩, Battleground.Inv.fresh gameTime inWorld⟩
  · exact iff_of_false Status.noConfusion fun hne => hne rfl
  all_goals simp [Arena.fresh, Battleground.fresh, empty]

/-- **One request** that is allowed and regular. -/
theorem Kept.step (h : s.Kept teams) {r : ArenaRequest} (hr : s.Allowed r) (hreg : s.Regular r) :
    (s.step r).Kept teams := by
  cases r with
  | addPlayer guid team => exact h.addPlayer hr hreg
  | eventPlayerLoggedIn guid => exact h.eventPlayerLoggedIn hr
  | eventPlayerLoggedOut guid => exact h.eventPlayerLoggedOut hr hreg
  | removePlayerAtLeave guid => exact h.removePlayerAtLeave hr hreg
  | kill victim byPlayer => exact h.kill victim byPlayer
  | update diff opens => exact h.update hreg
  | pass seconds =>
    exact ⟨h.books.with_bg rfl h.books.inside fun _ => rfl,
      h.roster.step (r := .pass seconds) trivial⟩
  | appear guid =>
    exact ⟨h.books.with_bg rfl h.books.inside fun _ => rfl, h.roster.step (r := .appear guid) hr⟩
  | restoreFaction guid =>
    exact ⟨h.books.with_bg rfl h.books.inside fun _ => rfl, h.roster⟩

/-- **The accounts of a rated arena match.**  In every run whose steps are allowed and
regular, the match is ended at most once and only while it is running, a winner is named
only when nobody of the other side is alive and online in the arena, each team gets at
most one game, and each player who came in gets exactly one, won if and only if he was
online in the arena on the winning side at the end. -/
theorem accounted_of_regular (teams : Opponents) (gameTime : ℕ) (inWorld dead : Guid → Bool)
    (getOTeam : Guid → Team) (rs : List ArenaRequest)
    (h : Along step (fun s r => s.Allowed r ∧ s.Regular r)
      (fresh teams gameTime inWorld dead getOTeam) rs) :
    Along step (fun s r => (s.step r).Accounted teams)
      (fresh teams gameTime inWorld dead getOTeam) rs :=
  Along.of_invariant (I := Kept teams) (fun _ _ hI hG => hI.step hG.1 hG.2)
    (fun _ _ hI hG => (hI.step hG.1 hG.2).books.accounted)
    (Kept.fresh teams gameTime inWorld dead getOTeam) h

/-! ### Runs that are, and runs that are not -/

/-- Players 1 and 2 of the one team, 3 and 4 of the other. -/
def player (n : Fin 4) : Guid := ⟨n + 1, Nat.succ_pos _, by omega⟩

def someTeams : Opponents where
  team
    | .alliance => ⟨10, 6, ⟨[⟨player 0, 10, 6⟩, ⟨player 1, 4, 2⟩], by decide⟩⟩
    | .horde => ⟨20, 9, ⟨[⟨player 2, 20, 9⟩, ⟨player 3, 0, 0⟩], by decide⟩⟩
  disjoint guid h := by
    have hmem : guid = player 0 ∨ guid = player 1 := by
      simp only [ArenaTeam.isMember, Option.isSome_iff_exists, Table.get?_eq_some] at h
      obtain ⟨m, hm, rfl⟩ := h
      simp only [List.mem_cons, List.not_mem_nil, or_false] at hm
      rcases hm with rfl | rfl
      · exact .inl rfl
      · exact .inr rfl
    rcases hmem with rfl | rfl <;> decide

/-- All four come in and the doors open. -/
def opening : List ArenaRequest :=
  [.addPlayer (player 0) .alliance, .addPlayer (player 1) .alliance, .addPlayer (player 2) .horde,
    .addPlayer (player 3) .horde, .update 60000 true]

/-- A match: 1 logs out and in, 3 is killed, 2 logs out and is removed in time, 4 is killed,
and 1 has won. -/
def someMatch : List ArenaRequest :=
  opening ++ [.eventPlayerLoggedOut (player 0), .eventPlayerLoggedIn (player 0),
    .kill (player 2) true, .eventPlayerLoggedOut (player 1), .pass 400,
    .update 1000 false, .kill (player 3) true, .removePlayerAtLeave (player 2),
    .update 120000 false]

/-- The arena of these players, all online and alive, and all of the `HORDE` by their race. -/
def someArena : Arena :=
  .fresh someTeams 1000 (fun _ => true) (fun _ => false) fun _ => .horde

theorem accounted_of_regular_match :
    Along step (fun s r => s.Allowed r ∧ s.Regular r) someArena someMatch ∧
      Along step (fun s r => (s.step r).Accounted someTeams) someArena someMatch :=
  have h : Along step (fun s r => s.Allowed r ∧ s.Regular r) someArena someMatch := by
    decide +kernel
  ⟨h, accounted_of_regular someTeams 1000 (fun _ => true) (fun _ => false) (fun _ => .horde)
    someMatch h⟩

/-- A run is allowed, and leaves wrong accounts. -/
def Miscounted (rs : List ArenaRequest) : Prop :=
  Along step Allowed someArena rs ∧ ¬ (rs.foldl step someArena).Accounted someTeams

/-- **Six ways to miscount.**  Player 1 is dead and logs out: the other side has won,
although player 2 is alive and online.  Player 1 logs out, in, and out again when player 3
is dead: his own side has won, although player 4 is alive and online.  Player 1 comes
and goes before the start: the match is over before it has begun.  Both players of a side die unseen and one of them
logs out: the match is ended twice.  Player 3 is offline at the time limit: he has no
game.  Player 4 comes in after the end: he has no game. -/
theorem miscounted :
    Miscounted (opening ++ [.kill (player 0) true, .eventPlayerLoggedOut (player 0)]) ∧
    Miscounted (opening ++ [.eventPlayerLoggedOut (player 0), .eventPlayerLoggedIn (player 0),
      .kill (player 2) true, .eventPlayerLoggedOut (player 0)]) ∧
    Miscounted [.addPlayer (player 0) .alliance, .addPlayer (player 2) .horde,
      .removePlayerAtLeave (player 0)] ∧
    Miscounted (opening ++ [.kill (player 0) false, .kill (player 1) false,
      .eventPlayerLoggedOut (player 0)]) ∧
    Miscounted (opening ++ [.eventPlayerLoggedOut (player 2), .update 2820000 false,
      .update 1000 false]) ∧
    Miscounted [.addPlayer (player 0) .alliance, .addPlayer (player 1) .alliance,
      .update 60000 true, .addPlayer (player 3) .horde] := by
  refine ⟨⟨by decide +kernel, fun h => ?_⟩, ⟨by decide +kernel, fun h => ?_⟩,
    ⟨by decide +kernel, fun h => ?_⟩, ⟨by decide +kernel, fun h => ?_⟩,
    ⟨by decide +kernel, fun h => ?_⟩, ⟨by decide +kernel, fun h => ?_⟩⟩
  · exact absurd h.decided (by decide +kernel)
  · exact absurd h.decided (by decide +kernel)
  · exact absurd h.running (by decide +kernel)
  · exact absurd h.once (by decide +kernel)
  · exact absurd (h.played (player 2, .horde)) (by decide +kernel)
  · exact absurd (h.played (player 3, .horde)) (by decide +kernel)

end Arena
end ZerosCore.Battlegrounds
