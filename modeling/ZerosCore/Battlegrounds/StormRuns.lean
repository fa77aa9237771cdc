/-
# Runs of Eye of the Storm

The players of a match join, log out and in, leave, and take the flag.
`EventPlayerLoggedOut` takes a participant out of the lists by `RemovePlayer`, and
`EventPlayerLoggedIn` does not put him back: he is online, and in no list.

`eye_of_the_storm` says what is kept in every run, and that `Quiet` decides whether a run
is right.
-/

import ZerosCore.Battlegrounds.StormUpdates

namespace ZerosCore.Battlegrounds.EyeOfTheStorm

open Lib List Option State Notice

variable {s t u : State} {guid g : Guid}

/-! ### The players -/

theorem count_eraseLoop_of_ne (h : g ≠ guid) (l : List Guid) :
    (eraseLoop guid l).count g = l.count g := by
  induction l using eraseLoop.induct guid with
  | case1 => rfl
  | case2 => rw [eraseLoop, if_pos rfl, count_cons_of_ne h.symm]
  | case3 a hne => rw [eraseLoop, if_neg hne]
  | case4 a l ih => rw [eraseLoop, if_pos rfl, count_cons, ih, count_cons_of_ne h.symm, count_cons]
  | case5 a b l hne ih => rw [eraseLoop, if_neg hne, count_cons, ih, ← count_cons]

theorem count_eraseLoop_self (guid : Guid) (l : List Guid) (h : l.count guid ≤ 1) :
    (eraseLoop guid l).count guid = 0 := by
  induction l using eraseLoop.induct guid with
  | case1 => rfl
  | case2 => rw [eraseLoop, if_pos rfl]; rfl
  | case3 a hne => rw [eraseLoop, if_neg hne, count_cons_of_ne hne, count_nil]
  | case4 a l ih =>
    rw [count_cons_self, count_cons] at h
    rw [eraseLoop, if_pos rfl, count_cons, ih (by omega)]
    split at h
    · omega
    rename_i hne
    rw [if_neg hne]
  | case5 a b l hne ih =>
    rw [count_cons_of_ne hne] at h
    rw [eraseLoop, if_neg hne, count_cons_of_ne hne, ih h]

/-- What holds of the lists and of a match that has not begun. -/
structure Inv (s : State) : Prop where
  right : PointsRight s
  atMost : ∀ g, occurrences s g ≤ 1
  absent : ∀ g, s.players g = none → occurrences s g = 0
  waiting : s.status = .waitJoin → ∀ g, s.players g ≠ none → occurrences s g = 1
  fresh : s.status = .waitJoin → s.flagState = .onBase ∧ s.flagKeeper = none

theorem sum_counts (s : State) (g : Guid) : occurrences s g = (s.playersNearPoint 0).count g +
    (s.playersNearPoint 1).count g + (s.playersNearPoint 2).count g +
    (s.playersNearPoint 3).count g + (s.playersNearPoint 4).count g := by
  have hrange : List.range (pointsMax + 1) = [0, 1, 2, 3, 4] := rfl
  simp [occurrences, hrange]
  omega

/-- The lists without a player. -/
def erased (s : State) (guid : Guid) : State :=
  { s with playersNearPoint := fun i => if i ≤ pointsMax then
      State.eraseLoop guid (s.playersNearPoint i) else s.playersNearPoint i }

theorem occurrences_erased_of_ne (h : g ≠ guid) (s : State) :
    occurrences (erased s guid) g = occurrences s g := by
  unfold erased
  rw [sum_counts, sum_counts]
  simp [pointsMax, count_eraseLoop_of_ne h]

theorem occurrences_erased_self (h : occurrences s guid ≤ 1) :
    occurrences (erased s guid) guid = 0 := by
  rw [sum_counts] at h
  have h0 := count_eraseLoop_self guid (s.playersNearPoint 0) (by omega)
  have h1 := count_eraseLoop_self guid (s.playersNearPoint 1) (by omega)
  have h2 := count_eraseLoop_self guid (s.playersNearPoint 2) (by omega)
  have h3 := count_eraseLoop_self guid (s.playersNearPoint 3) (by omega)
  have h4 := count_eraseLoop_self guid (s.playersNearPoint 4) (by omega)
  unfold erased
  rw [sum_counts]
  simp [pointsMax, h0, h1, h2, h3, h4]

theorem event_dropped (s : State) (guid : Guid) : Event s (s.eventPlayerDroppedFlag guid) := by
  unfold eventPlayerDroppedFlag
  split
  · rename_i hs
    split
    · exact event_change fun h => { h with flag := fun hs' => absurd hs' hs }
    · exact .refl s
  split
  · exact .refl s
  · exact event_change fun h => { h with flag := fun _ => by simp [setFlagPicker] }

theorem event_clicked (s : State) (guid : Guid) : Event s (s.eventPlayerClickedOnFlag guid) := by
  unfold eventPlayerClickedOnFlag
  split
  · exact .refl s
  · exact event_change fun h => { h with flag := fun _ => by simp [setFlagPicker] }

theorem event_areaTrigger (s : State) (guid : Guid) (p : ℕ) :
    Event s (s.handleAreaTrigger guid p) := by
  unfold handleAreaTrigger
  split
  · exact .refl s
  split
  · exact event_captured s guid
  · exact .refl s

/-- **A player is removed**: he is in no list, and the flag he carries is dropped or
respawns. -/
theorem event_removePlayer (s : State) (found : Bool) (guid : Guid) :
    Event (erased s guid) (s.removePlayer found guid) := by
  have hstep : s.removePlayer found guid = if (erased s guid).flagKeeper = some guid then
      if found then (erased s guid).eventPlayerDroppedFlag guid
      else ((erased s guid).setFlagPicker none).respawnFlag else erased s guid := rfl
  rw [hstep]
  split
  · split
    · exact event_dropped _ guid
    · exact event_change fun h => { h with flag := fun _ => by simp [setFlagPicker] }
  · exact .refl _

theorem Checked.waitJoin (h : Checked s t) (ht : t.status = .waitJoin) : s.status = .waitJoin := by
  obtain hs | ⟨-, hs⟩ := h.status
  · exact hs ▸ ht
  rw [hs] at ht
  cases ht

theorem Checked.inProgress (h : Checked s t) (ht : t.status = .inProgress) :
    s.status = .inProgress := by
  obtain hs | ⟨-, hs⟩ := h.status
  · exact hs ▸ ht
  rw [hs] at ht
  cases ht

theorem Inv.event (h : Inv s) (he : Event s t)
    (hfresh : s.status = .waitJoin → t.flagState = .onBase ∧ t.flagKeeper = none) : Inv t where
  right := he.right h.right
  atMost g := (occurrences_congr he.near g).trans_le (h.atMost g)
  absent g hg := (occurrences_congr he.near g).trans (h.absent g (he.players ▸ hg))
  waiting ht g hg := (occurrences_congr he.near g).trans
    (h.waiting (he.waitJoin ht) g (he.players ▸ hg))
  fresh ht := hfresh (he.waitJoin ht)

theorem NearRight.event (h : NearRight s) (he : Event s t) : NearRight t := fun ht g hg =>
  (occurrences_congr he.near g).trans
    (h (he.inProgress ht) g (he.players ▸ hg))

theorem Told.event (h : Told s) (he : Event s t) : Told t :=
  ⟨he.forall_right.mpr h.right, he.ends h.ends⟩

theorem Inv.players {players : Guid → Option Presence} {near : ℕ → List Guid} (h : Inv s)
    (hat : ∀ g, occurrences { s with players := players, playersNearPoint := near } g ≤ 1)
    (habsent : ∀ g, players g = none →
      occurrences { s with players := players, playersNearPoint := near } g = 0)
    (hwaiting : s.status = .waitJoin → ∀ g, players g ≠ none →
      occurrences { s with players := players, playersNearPoint := near } g = 1) :
    Inv { s with players := players, playersNearPoint := near } :=
  ⟨{ h.right with }, hat, habsent,
    hwaiting, h.fresh⟩

theorem Inv.presence (h : Inv s) (hin : s.players guid ≠ none) (p : Presence) :
    Inv { s with players := fun g => if g = guid then some p else s.players g } := by
  have hplayers (g : Guid) (hg : s.players g = none) : g ≠ guid := fun heq => hin (heq ▸ hg)
  refine h.players h.atMost (fun g hg => ?_) fun hwait g _ => ?_
  · by_cases hne : g = guid
    · rw [if_pos hne] at hg
      cases hg
    rw [if_neg hne] at hg
    exact h.absent g hg
  by_cases hne : g = guid
  · exact h.waiting hwait g (hne ▸ hin)
  rename_i hg
  rw [if_neg hne] at hg
  exact h.waiting hwait g hg

/-! ### A step -/

/-- A state whose participants are others, and whose lists are those without a player. -/
def removed (s : State) (guid : Guid) (presence : Option Presence) : State :=
  erased { s with players := fun g => if g = guid then presence else s.players g } guid

theorem Inv.of_removed (h : Inv s) (guid : Guid) (presence : Option Presence)
    (hs : s.status = .waitJoin → presence = none) : Inv (removed s guid presence) := by
  have hself : occurrences (removed s guid presence) guid = 0 :=
    occurrences_erased_self (s := { s with players := _ }) (h.atMost guid)
  have hother {g : Guid} (hne : g ≠ guid) :
      occurrences (removed s guid presence) g = occurrences s g :=
    occurrences_erased_of_ne hne { s with players := _ }
  refine h.players (fun g => ?_) (fun g hg => ?_) fun hwait g hg => ?_
  · by_cases hne : g = guid
    · rw [hne]
      exact hself.trans_le (Nat.zero_le 1)
    · exact (hother hne).trans_le (h.atMost g)
  · dsimp only at hg
    by_cases hne : g = guid
    · rw [hne]
      exact hself
    rw [if_neg hne] at hg
    exact (hother hne).trans (h.absent g hg)
  dsimp only at hg
  by_cases hne : g = guid
  · rw [if_pos hne, hs hwait] at hg
    exact absurd rfl hg
  rw [if_neg hne] at hg
  exact (hother hne).trans (h.waiting hwait g hg)

variable {presence : Option Presence}

theorem NearRight.of_removed (h : NearRight s) (guid : Guid)
    (hp : presence ≠ some .online) : NearRight (removed s guid presence) := by
  intro hs g hg
  by_cases hne : g = guid
  · have hself : (removed s guid presence).players g = presence := if_pos hne
    exact absurd (hself.symm.trans hg) hp
  have hsame : (removed s guid presence).players g = s.players g := if_neg hne
  exact (occurrences_erased_of_ne hne { s with players := _ }).trans (h hs g (hsame ▸ hg))

/-- Everything a run keeps, besides what its steps should keep. -/
structure Kept (s t : State) : Prop where
  inv : Inv t
  told : Told s → Told t
  near : NearRight s → NearRight t

theorem Kept.event (h : Kept s t) (he : Event t u)
    (hfresh : s.status = .waitJoin → u.flagState = .onBase ∧ u.flagKeeper = none)
    (hstatus : t.status = .waitJoin → s.status = .waitJoin) : Kept s u :=
  ⟨h.inv.event he fun ht => hfresh (hstatus ht), fun hs => (h.told hs).event he,
    fun hs => (h.near hs).event he⟩

theorem occurrences_addPlayer (s : State) (guid g : Guid) : occurrences (s.addPlayer guid) g =
    occurrences s g + if g = guid then 1 else 0 := by
  rw [sum_counts, sum_counts]
  by_cases hg : g = guid
  · simp [addPlayer, setNear, playersOutOfPoints, hg]
    omega
  have hne : ¬guid = g := fun heq => hg heq.symm
  simp [addPlayer, setNear, playersOutOfPoints, hg, hne]

section

variable (h : Inv s)

include h

theorem Inv.kept : Kept s s := ⟨h, id, id⟩

theorem Inv.kept_removed (found : Bool) (guid : Guid)
    (hp : presence ≠ some .online) (hs : s.status = .waitJoin → presence = none) :
    Kept s ({ s with players := fun g => if g = guid then presence else s.players g }.removePlayer
      found guid) := by
  have herased : Kept s (removed s guid presence) :=
    ⟨h.of_removed guid presence hs, fun ht => ⟨ht.right, ht.ends⟩, fun hn => hn.of_removed guid hp⟩
  refine herased.event (event_removePlayer _ found guid) (fun hwait => ?_) id
  have hkeeper := (h.fresh hwait).2
  have hnot : ¬(removed s guid presence).flagKeeper = some guid := by
    have hsame : (removed s guid presence).flagKeeper = s.flagKeeper := rfl
    rw [hsame, hkeeper]
    simp
  have hstep : (if (removed s guid presence).flagKeeper = some guid then
      if found then (removed s guid presence).eventPlayerDroppedFlag guid
      else ((removed s guid presence).setFlagPicker none).respawnFlag
      else removed s guid presence) = removed s guid presence := if_neg hnot
  refine (congrArg (fun t : State => t.flagState = .onBase ∧ t.flagKeeper = none) hstep).mpr ?_
  exact h.fresh hwait

/-- The match begins: everybody is in the list of those out of all points. -/
theorem Inv.kept_start : Kept s (step s .start) := by
  unfold step
  dsimp only
  split
  · rename_i hs
    have hkeeper := h.fresh hs
    refine ⟨⟨{ h.right with flag := fun _ => ?_ }, h.atMost,
      h.absent, nofun, nofun⟩, fun ht => ⟨ht.right, ?_⟩,
      fun _ _ g hg => ?_⟩
    · rw [hkeeper.1, hkeeper.2]
      simp
    · have hends := ht.ends
      unfold EndOk at hends ⊢
      rw [hs] at hends
      exact hends
    have hne : s.players g ≠ none := by
      have hsame : s.players g = some .online := hg
      rw [hsame]
      simp
    exact h.waiting hs g hne
  · exact h.kept

/-- Who joins is put into the list of those out of all points. -/
theorem Inv.kept_join (guid : Guid) : Kept s (step s (.join guid)) := by
  unfold step
  dsimp only
  split
  · rename_i hnone
    have hzero := h.absent guid hnone
    have hcount := occurrences_addPlayer s guid
    refine ⟨h.players (fun g => ?_) (fun g hg => ?_) fun hwait g hg => ?_,
      fun ht => ⟨ht.right, ht.ends⟩, fun hn hs g hg => ?_⟩
    · refine (hcount g).trans_le ?_
      by_cases hne : g = guid
      · rw [hne, hzero, if_pos rfl]
      rw [if_neg hne]
      exact h.atMost g
    · dsimp only at hg
      have hne : g ≠ guid := by
        rintro rfl
        simp at hg
      rw [if_neg hne] at hg
      refine (hcount g).trans ?_
      rw [if_neg hne, h.absent g hg]
    · dsimp only at hg
      refine (hcount g).trans ?_
      by_cases hne : g = guid
      · rw [hne, hzero, if_pos rfl]
      rw [if_neg hne] at hg ⊢
      exact h.waiting hwait g hg
    refine (hcount g).trans ?_
    by_cases hne : g = guid
    · rw [hne, hzero, if_pos rfl]
    have hsame : (s.addPlayer guid).players g = s.players g := if_neg hne
    rw [if_neg hne]
    exact hn hs g (hsame ▸ hg)
  · exact h.kept

/-- Who logs out of a match that goes on is removed. -/
theorem Inv.kept_logOut (guid : Guid) : Kept s (step s (.logOut guid)) := by
  unfold step
  dsimp only
  split
  · rename_i honline
    unfold eventPlayerLoggedOut
    dsimp only
    split
    · rename_i hs
      exact h.kept_removed true guid (by simp) fun hwait => by
        have hsame : s.status = .inProgress := hs
        rw [hsame] at hwait
        cases hwait
    rename_i hs
    exact ⟨h.presence (by simp [honline]) .offline, fun ht => ⟨ht.right, ht.ends⟩,
      fun _ hs' => absurd hs' hs⟩
  · exact h.kept

/-- **A request that is no login and no update** keeps everything. -/
theorem Inv.kept_step (r : Request) (hlogIn : ∀ guid, r ≠ .logIn guid)
    (hupdate : ∀ diff v, r ≠ .postUpdate diff v) : Kept s (step s r) := by
  cases r with
  | start => exact h.kept_start
  | join guid => exact h.kept_join guid
  | logOut guid => exact h.kept_logOut guid
  | logIn guid => exact absurd rfl (hlogIn guid)
  | leave found guid =>
    unfold step
    dsimp only
    split
    · exact h.kept
    · exact h.kept_removed found guid (by simp) fun _ => rfl
  | click guid =>
    unfold step
    dsimp only
    split
    · refine h.kept.event (event_clicked s guid) (fun hwait => ?_) id
      have hsame : s.eventPlayerClickedOnFlag guid = s := if_pos (.inl (by rw [hwait]; simp))
      rw [hsame]
      exact h.fresh hwait
    · exact h.kept
  | drop guid =>
    refine h.kept.event (event_dropped s guid) (fun hwait => ?_) id
    have hkeeper := (h.fresh hwait).2
    have hsame : s.eventPlayerDroppedFlag guid = s := by
      unfold eventPlayerDroppedFlag
      rw [if_pos (by rw [hwait]; simp), if_neg (by rw [hkeeper]; simp)]
    have hstep : step s (.drop guid) = s := hsame
    rw [hstep]
    exact h.fresh hwait
  | areaTrigger guid p =>
    unfold step
    dsimp only
    split
    · refine h.kept.event (event_areaTrigger s guid p) (fun hwait => ?_) id
      have hsame : s.handleAreaTrigger guid p = s := if_pos (by rw [hwait]; simp)
      rw [hsame]
      exact h.fresh hwait
    · exact h.kept
  | postUpdate diff v => exact absurd rfl (hupdate diff v)

theorem Inv.logIn (guid : Guid) : Inv (step s (.logIn guid)) := by
  unfold step
  dsimp only
  split
  · rename_i hoffline
    exact h.presence (by simp [hoffline]) .online
  · exact h

theorem Inv.updated (hs : s.status = .inProgress) (hu : Updated s t) : Inv t := by
  have hstatus : t.status ≠ .waitJoin := by
    obtain heq | ⟨-, heq⟩ := hu.status
    · rw [heq, hs]
      simp
    rw [heq]
    simp
  refine ⟨hu.right h.right, fun g => (hu.occurrences g).trans_le (h.atMost g), fun g hg =>
    (hu.occurrences g).trans (h.absent g (hu.players ▸ hg)), fun heq => absurd heq hstatus,
    fun heq => absurd heq hstatus⟩

/-- **A step keeps the invariant.** -/
theorem inv_step (r : Request) : Inv (step s r) := by
  cases r with
  | logIn guid => exact h.logIn guid
  | postUpdate diff v =>
    by_cases hs : s.status = .inProgress
    · exact h.updated hs (postUpdateImpl_updated hs h.right diff v)
    have hstep : step s (.postUpdate diff v) = s := if_neg hs
    rw [hstep]
    exact h
  | _ => exact (h.kept_step _ (by simp) (by simp)).inv

/-- **A step is right exactly if it is quiet.** -/
theorem Inv.step_spec (ht : Told s) (hn : NearRight s) (r : Request) :
    (NearRight (step s r) ∧ NoticesRight (step s r) ↔ Quiet s r) ∧
      (NearRight (step s r) ∧ NoticesRight (step s r) → Told (step s r)) := by
  have hother (hquiet : Quiet s r) (hkept : Kept s (step s r)) :
      (NearRight (step s r) ∧ NoticesRight (step s r) ↔ Quiet s r) ∧
        (NearRight (step s r) ∧ NoticesRight (step s r) → Told (step s r)) :=
    ⟨iff_of_true ⟨hkept.near hn, (hkept.told ht).noticesRight⟩ hquiet, fun _ => hkept.told ht⟩
  cases r with
  | logIn guid =>
    have htold : Told (step s (.logIn guid)) := by
      unfold step
      dsimp only
      split
      · exact ⟨ht.right, ht.ends⟩
      · exact ht
    refine ⟨⟨fun hright hs hoffline => ?_, fun hquiet => ⟨fun hs g hg => ?_,
      htold.noticesRight⟩⟩, fun _ => htold⟩
    · have hstep : step s (.logIn guid) = s.eventPlayerLoggedIn guid := if_pos hoffline
      have hnear := hright.1
      rw [hstep] at hnear
      exact hnear hs guid (if_pos rfl)
    by_cases hoffline : s.players guid = some .offline
    · have hstep : step s (.logIn guid) = s.eventPlayerLoggedIn guid := if_pos hoffline
      rw [hstep] at hs hg ⊢
      by_cases hne : g = guid
      · rw [hne]
        exact hquiet hs hoffline
      have hsame : (s.eventPlayerLoggedIn guid).players g = s.players g := if_neg hne
      exact hn hs g (hsame ▸ hg)
    have hstep : step s (.logIn guid) = s := if_neg hoffline
    rw [hstep] at hs hg ⊢
    exact hn hs g hg
  | postUpdate diff v =>
    by_cases hs : s.status = .inProgress
    · have hupdated := postUpdateImpl_updated hs h.right diff v
      obtain ⟨hiff, htold⟩ := postUpdateImpl_spec hs h.right ht diff v
      have hnear : NearRight (s.postUpdateImpl diff v) := by
        intro hs' g hg
        rw [hupdated.occurrences]
        exact hn hs g (hupdated.players ▸ hg)
      exact ⟨(and_iff_right hnear).trans hiff, fun hand => htold hand.2⟩
    have hstep : step s (.postUpdate diff v) = s := if_neg hs
    rw [hstep]
    exact ⟨iff_of_true ⟨hn, ht.noticesRight⟩ fun hs' => absurd hs' hs, fun _ => ht⟩
  | _ => exact hother trivial (h.kept_step _ (by simp) (by simp))

end

/-! ### Runs -/

theorem inv_reset (team : Guid → Team) (isBGWeekend : Bool) : Inv (reset team isBGWeekend) where
  right := by
    refine ⟨fun t => ?_, fun p => ?_, nofun, fun p _ => ⟨?_, ?_⟩,
      nofun⟩
    · cases t <;> rfl
    · simp [reset]
    · exact (by decide : progressBarHordeControlled ≤ progressBarStateMiddle)
    · exact (by decide : progressBarStateMiddle ≤ progressBarAliControlled)
  atMost _ := by
    rw [sum_counts]
    simp [reset]
  absent _ _ := by
    rw [sum_counts]
    simp [reset]
  waiting _ _ hg := absurd rfl hg
  fresh _ := ⟨rfl, rfl⟩

/-- **What a match keeps, and when it is right.**  In every run from `Reset` on the points
of the teams are counted, the tables of points are read within their range, the bars stay
between their ends, and the flag is carried exactly while it has a keeper.  And every
participant that is online is in exactly one list, no bar moves too far, and the match ends
at most once, all along the run, exactly if no step meets one of the three defects. -/
theorem eye_of_the_storm (team : Guid → Team) (isBGWeekend : Bool) (rs : List Request) :
    Along step (fun s r => PointsRight (step s r)) (reset team isBGWeekend) rs ∧
      (Along step (fun s r => NearRight (step s r) ∧ NoticesRight (step s r))
          (reset team isBGWeekend) rs ↔ Along step Quiet (reset team isBGWeekend) rs) := by
  have htold : Told (reset team isBGWeekend) := ⟨nofun, Nat.zero_le _⟩
  constructor
  · exact Along.of_invariant (I := Inv) (fun _ r h _ => inv_step h r)
      (fun _ r h _ => (inv_step h r).right) (inv_reset team isBGWeekend) along_true
  refine Along.iff_of_invariant (I := fun s => Inv s ∧ Told s ∧ NearRight s)
    (Q := fun s => NearRight s ∧ NoticesRight s) ?_ ?_
    ⟨inv_reset team isBGWeekend, htold, nofun⟩
  · exact fun s r h => (h.1.step_spec h.2.1 h.2.2 r).1
  · exact fun s r h hright => ⟨inv_step h.1 r, (h.1.step_spec h.2.1 h.2.2 r).2 hright, hright.1⟩

/-- A player joins, the match begins, he logs out and in again. -/
def loggedInAgain : State :=
  [Request.join ⟨3, by decide, by decide⟩, .start, .logOut ⟨3, by decide, by decide⟩,
    .logIn ⟨3, by decide, by decide⟩].foldl step (reset (fun _ => .alliance) false)

theorem online_in_no_list : ¬NearRight loggedInAgain := fun h =>
  absurd (h (by decide) ⟨3, by decide, by decide⟩ (by decide)) (by decide)

end ZerosCore.Battlegrounds.EyeOfTheStorm
