/-
# Groups that are found

`FindNewGroups` looks for a full group of a new entry and some that wait.  It takes the
candidates out of a list that all levels of its recursion share, so that a level finds nothing
left when the one below it comes back: with nothing cached the search is one pass over the
waiting entries, which takes each that is compatible with those it has taken (`gather`), and
never gives one back.

It finds a group just when that pass ends with one (`findNewGroups_complete_iff`).  A first
entry that fits, but leaves no dungeon for the others, hides a group that is there
(`group_hidden`).
-/

import ZerosCore.Lfg.Soundness

namespace ZerosCore.Lfg

open Lib Search List Option

variable {w : World} {q : LFGQueue} {s : Search} {check all l : List ℕ} {guid : ℕ} {key : List Char}

/-! ### One pass -/

open Classical in
/-- The entries of a list one after another, each that is compatible with those taken before. -/
noncomputable def gather (w : World) (q : LFGQueue) : List ℕ → List ℕ → List ℕ
  | check, [] => check
  | check, guid :: all =>
    if Compatible w q (check ++ [guid]) then gather w q (check ++ [guid]) all
    else gather w q check all

theorem gather_cons_of_compatible (h : Compatible w q (check ++ [guid])) :
    gather w q check (guid :: all) = gather w q (check ++ [guid]) all := if_pos h

theorem gather_cons_of_not (h : ¬Compatible w q (check ++ [guid])) :
    gather w q check (guid :: all) = gather w q check all := if_neg h

theorem members_append (q : LFGQueue) (check l : List ℕ) :
    members q (check ++ l) = members q check ++ members q l := flatMap_append

theorem gather_full (hq : Entries q) (hfull : (members q check).length = maxGroupSize) :
    gather w q check all = check := by
  induction all with
  | nil => rfl
  | cons guid all ih =>
    rw [gather_cons_of_not, ih]
    intro h
    have hpos := hq.roles_pos (h.data guid (mem_append_right _ mem_cons_self))
    have hsize := h.size
    rw [members_append, length_append, length_members_cons] at hsize
    omega

/-! ### The search -/

/-- The entries of a search, which have data, are queued and are all different. -/
structure Ready (w : World) (q : LFGQueue) (s : Search) (check all : List ℕ) : Prop where
  entries : Entries q
  same : s.queue.queueData = q.queueData
  data : ∀ guid ∈ check ++ all, (q.queueData guid).isSome
  queued : ∀ guid ∈ check ++ all, w.state guid = .queued
  nodup : (check ++ all).Nodup

/-- Nothing is cached of some entries with candidates of a list. -/
def Fresh (s : Search) (check all : List ℕ) : Prop :=
  ∀ l, l.Sublist all → s.queue.compatibles (concatenateGuids (check ++ l)) = none

theorem Ready.next (h : Ready w q s check (guid :: all)) : Ready w q s (check ++ [guid]) all := by
  have hsame : check ++ guid :: all = (check ++ [guid]) ++ all := by
    rw [append_assoc, singleton_append]
  obtain ⟨hentries, hdata, hsome, hqueued, hnodup⟩ := h
  rw [hsame] at hsome hqueued hnodup
  exact ⟨hentries, hdata, hsome, hqueued, hnodup⟩

theorem Ready.skip {s' : Search} (h : Ready w q s check (guid :: all))
    (hdata : s'.queue.queueData = s.queue.queueData) : Ready w q s' check all := by
  have hsub : (check ++ all).Sublist (check ++ guid :: all) :=
    (Sublist.refl check).append (sublist_cons_self guid all)
  exact ⟨h.entries, hdata.trans h.same, fun g hg => h.data g (hsub.subset hg),
    fun g hg => h.queued g (hsub.subset hg), h.nodup.sublist hsub⟩

theorem Ready.allQueued (h : Ready w q s check all) (hne : check ≠ []) :
    w.allQueued check = true := by
  unfold World.allQueued
  rw [Bool.and_eq_true, decide_eq_true_eq, List.all_eq_true]
  exact ⟨hne, fun g hg => decide_eq_true (h.queued g (List.mem_append_left _ hg))⟩

/-- **A fresh answer**: entries that are not compatible are told from those that are too few, and
from a full group. -/
theorem getCompatibility_spec (h : Ready w q s check all) (hne : check ≠ [])
    (hfresh : s.queue.compatibles (concatenateGuids check) = none) :
    (¬Compatible w q check → (getCompatibility w s check).2 ≠ .withLessPlayers ∧
        (getCompatibility w s check).2 ≠ .matched) ∧
      (Compatible w q check → (getCompatibility w s check).2 =
        if (members q check).length = maxGroupSize then .matched else .withLessPlayers) ∧
      (getCompatibility w s check).1 = (checkCompatibility w s check).1 := by
  have hq := h.entries.congr h.same
  have hpending : s.queue.getCompatibles check = .pending := by
    unfold LFGQueue.getCompatibles
    rw [hfresh]
    rfl
  have hqueued := h.allQueued hne
  unfold getCompatibility
  rw [if_pos hpending]
  by_cases hcompatible : Compatible w q check
  · obtain ⟨s', hcached, houtcome⟩ := checkCompatibility_outcome hq (hcompatible.congr h.same)
    have hmembers := members_congr (hcached.queueData.trans h.same) check
    generalize checkCompatibility w s check = r at houtcome
    refine ⟨fun hnot => absurd hcompatible hnot, ?_⟩
    cases houtcome with
    | refused c hc hnot | missing g _ _ hnot =>
      exact absurd (hcompatible.congr (hcached.queueData.trans h.same)) hnot
    | less _ hless =>
      rw [hmembers] at hless
      exact ⟨fun _ => (if_neg hless).symm, rfl⟩
    | badStates _ _ hstates => exact absurd (hstates.symm.trans hqueued) Bool.false_ne_true
    | matched p hqueues hoffer =>
      have hfull := hoffer.proposable.full
      rw [hqueues, hmembers] at hfull
      exact ⟨fun _ => (if_pos hfull).symm, rfl⟩
  have hrefused := checkCompatibility_refused (w := w) hq
    fun hc => hcompatible (hc.congr h.same.symm)
  generalize checkCompatibility w s check = r at hrefused
  have hstates : ¬(r.2 = .badStates ∧ w.allQueued check = true) := by
    rintro ⟨heq, -⟩
    rw [heq] at hrefused
    cases hrefused
  rw [if_neg hstates]
  refine ⟨fun _ => ⟨fun heq => ?_, fun heq => ?_⟩, fun hc => absurd hc hcompatible, rfl⟩
  all_goals
    rw [heq] at hrefused
    cases hrefused

/-- What a search comes to: entries that are not compatible leave the candidates for others, and
compatible ones use them up, unless they come to a full group. -/
structure Finds (w : World) (q : LFGQueue) (s : Search) (check all : List ℕ)
    (r : Search × LfgCompatibility × List ℕ) : Prop where
  refused : ¬Compatible w q check → r.2.1 ≠ .matched ∧ r.2.2 = all ∧
    r.1.queue.queueData = s.queue.queueData ∧
    ∀ key, (∀ l, l <:+ check → l ≠ [] → key ≠ concatenateGuids l) →
      r.1.queue.compatibles key = s.queue.compatibles key
  matched : Compatible w q check → (r.2.1 = .matched ↔ Proposable w q (gather w q check all))
  used : Compatible w q check → r.2.1 ≠ .matched → r.2.2 = []

theorem key_ne (guid : ℕ) (hin : guid ∈ l) (hout : guid ∉ check) :
    concatenateGuids check ≠ concatenateGuids l := fun heq => hout ((mem_iff_of_key heq guid).mpr hin)

/-- **The loop over the candidates.**  By induction on the candidates that are left: one that is not
compatible is passed over, one that is takes the rest. -/
theorem tryQueued_finds {find : Search → List ℕ → List ℕ → Search × LfgCompatibility × List ℕ}
    {left n : ℕ}
    (hfind : ∀ s check all, all.length < n → check ≠ [] → Ready w q s check all →
      Fresh s check all → Finds w q s check all (find s check all))
    (hleft : all.length ≤ left) (hn : all.length ≤ n) (h : Ready w q s check all)
    (hless : (members q check).length ≠ maxGroupSize)
    (hfresh : ∀ l, l ≠ [] → l.Sublist all →
      s.queue.compatibles (concatenateGuids (check ++ l)) = none) :
    ((tryQueued find left s check all).2.1 = .matched ↔ Proposable w q (gather w q check all)) ∧
      ((tryQueued find left s check all).2.1 ≠ .matched →
        (tryQueued find left s check all).2.2 = []) := by
  induction left generalizing s all with
  | zero =>
    have hnil := length_eq_zero_iff.mp (Nat.le_zero.mp hleft)
    subst hnil
    exact ⟨⟨fun heq => (by cases heq), fun hcan => absurd hcan.full hless⟩, fun _ => rfl⟩
  | succ left ih =>
    cases all with
    | nil => exact ⟨⟨fun heq => (by cases heq), fun hcan => absurd hcan.full hless⟩, fun _ => rfl⟩
    | cons guid all =>
      rw [length_cons] at hleft hn
      have hone := hfind s (check ++ [guid]) all (by omega) (by simp) h.next fun l hl => by
        rw [append_assoc, singleton_append]
        exact hfresh (guid :: l) (cons_ne_nil _ _) (hl.cons_cons guid)
      unfold tryQueued
      by_cases hcompatible : Compatible w q (check ++ [guid])
      · have hmatched := hone.matched hcompatible
        have hused := hone.used hcompatible
        rw [gather_cons_of_compatible hcompatible, ← hmatched]
        generalize find s (check ++ [guid]) all = r at hused
        by_cases hr : r.2.1 = .matched
        · rw [if_pos hr]
          exact ⟨Iff.rfl, fun hne => absurd hr hne⟩
        rw [if_neg hr, hused hr]
        have hnil : tryQueued find left r.1 check [] = (r.1, .withLessPlayers, []) := by
          cases left with
          | zero | succ left => rfl
        rw [hnil]
        exact ⟨⟨fun heq => (by cases heq), fun heq => absurd heq hr⟩, fun _ => rfl⟩
      obtain ⟨hne, hall, hdata, hcache⟩ := hone.refused hcompatible
      rw [gather_cons_of_not hcompatible, if_neg hne, hall]
      refine ih (by omega) (by omega) (h.skip hdata) fun l hl hsub => ?_
      have hout : guid ∉ check ++ l := by
        have hnodup := h.nodup
        rw [nodup_append] at hnodup
        obtain ⟨-, hcons, hapart⟩ := hnodup
        intro hin
        rcases mem_append.mp hin with hin | hin
        · exact hapart guid hin guid mem_cons_self rfl
        · exact (nodup_cons.mp hcons).1 (hsub.subset hin)
      rw [hcache]
      · exact hfresh l hl (hsub.cons guid)
      intro t ht htne
      refine key_ne guid ?_ hout
      rcases suffix_concat_iff.mp ht with rfl | ⟨front, rfl, -⟩
      · exact absurd rfl htne
      · exact mem_append_right _ mem_cons_self

/-- **The search**, by induction on its depth. -/
theorem findNewGroups_finds (fuel : ℕ) (hfuel : all.length < fuel) (hne : check ≠ [])
    (h : Ready w q s check all) (hfresh : Fresh s check all) :
    Finds w q s check all (findNewGroups w fuel s check all) := by
  induction fuel generalizing s check all with
  | zero => exact absurd hfuel (Nat.not_lt_zero _)
  | succ fuel ih =>
    have hq := h.entries.congr h.same
    have hnone := hfresh [] (nil_sublist all)
    rw [append_nil] at hnone
    have hdata : ∀ guid ∈ check, (s.queue.queueData guid).isSome := by
      rw [h.same]
      exact fun guid hguid => h.data guid (mem_append_left _ hguid)
    obtain ⟨hrefused, hanswer, hsearch⟩ := getCompatibility_spec h hne hnone
    have hextends := checkCompatibility_extends (w := w) hq check
    have hcache (key : List Char) (hkey : ∀ l, l <:+ check → l ≠ [] → key ≠ concatenateGuids l) :=
      checkCompatibility_compatibles (w := w) hq hdata hkey
    rw [← hsearch] at hextends hcache
    unfold findNewGroups
    generalize getCompatibility w s check = r at hrefused hanswer hextends hcache
    dsimp only
    by_cases hcompatible : Compatible w q check
    · have hr := hanswer hcompatible
      by_cases hfull : (members q check).length = maxGroupSize
      · rw [if_pos hfull] at hr
        have hcan : Proposable w q (gather w q check all) := by
          rw [gather_full h.entries hfull]
          exact ⟨hcompatible, hfull, h.allQueued hne⟩
        rw [hr, if_pos (by decide)]
        exact ⟨fun hnot => absurd hcompatible hnot, fun _ => ⟨fun _ => hcan, fun _ => rfl⟩,
          fun _ hnot => absurd rfl hnot⟩
      rw [if_neg hfull] at hr
      rw [hr, if_neg (by decide)]
      have hready : Ready w q r.1 check all :=
        { h with same := hextends.queueData.trans h.same }
      obtain ⟨hmatched, hused⟩ := tryQueued_finds (n := fuel)
        (fun s check all hn hne h hfresh => ih hn hne h hfresh) (Nat.le_refl _)
        (Nat.le_of_lt_succ hfuel) hready hfull fun l hl hsub => by
          rw [hcache]
          · exact hfresh l hsub
          intro t ht _
          obtain ⟨guid, hguid⟩ := exists_mem_of_ne_nil l hl
          have hout : guid ∉ t := fun hin =>
            (nodup_append.mp h.nodup).2.2 guid (ht.subset hin) guid (hsub.subset hguid) rfl
          exact (key_ne guid (mem_append_right _ hguid) hout).symm
      exact ⟨fun hnot => absurd hcompatible hnot, fun _ => hmatched, fun _ => hused⟩
    obtain ⟨hless, hmatched⟩ := hrefused hcompatible
    rw [if_pos hless]
    exact ⟨fun _ => ⟨hmatched, rfl, hextends.queueData, hcache⟩,
      fun hc => absurd hc hcompatible, fun hc => absurd hc hcompatible⟩

/-! ### Groups that are there -/

/-- Entries that form a full valid group: they have data, they are five different players of whom
nobody ignores another, at most one is a group in a dungeon, and there are roles and a dungeon for
all. -/
structure FullGroup (w : World) (q : LFGQueue) (check : List ℕ) : Prop where
  data : ∀ guid ∈ check, (q.queueData guid).isSome
  five : (members q check).length = maxGroupSize
  distinct : ((members q check).map Prod.fst).Nodup
  groups : check.countP w.isLfgGroup ≤ 1
  peace : ∀ e ∈ members q check, ∀ e' ∈ members q check, e.1 ≠ e'.1 → w.ignores e.1 e'.1 = false
  roles : ∃ a, Assignment (members q check) a
  dungeon : ∃ d, ∀ guid ∈ check, d ∈ q.dungeons guid

/-- **The search for a group.**  With nothing cached, and whatever waits in whatever order: some
of the waiting entries that form a full group with a new one are a reason for `FindNewGroups` to
answer with a match, if and only if one pass over the waiting entries, each taken that fits to
those taken before, ends with a group. -/
theorem findNewGroups_complete_iff (w : World) (q : LFGQueue) (guid : ℕ) (queue : List ℕ)
    (hentries : Entries q) (hnodup : (guid :: queue).Nodup)
    (hdata : ∀ g ∈ guid :: queue, (q.queueData g).isSome)
    (hqueued : ∀ g ∈ guid :: queue, w.state g = .queued)
    (hcache : ∀ key, q.compatibles key = none) (made : List LfgProposal) :
    ((∃ l, l.Sublist queue ∧ FullGroup w q (guid :: l)) →
        (findNewGroups w (queue.length + 1) ⟨q, made⟩ [guid] queue).2.1 = .matched) ↔
      ((∃ l, l.Sublist queue ∧ FullGroup w q (guid :: l)) →
        Proposable w q (gather w q [guid] queue)) := by
  have hready : Ready w q ⟨q, made⟩ [guid] queue := ⟨hentries, rfl, hdata, hqueued, hnodup⟩
  have hfinds := findNewGroups_finds (queue.length + 1) (Nat.lt_succ_self _)
    (cons_ne_nil guid []) hready fun l _ => hcache _
  have hsingle : Compatible w q [guid] := by
    obtain ⟨data, hsome⟩ := isSome_iff_exists.mp (hdata guid mem_cons_self)
    constructor
    · exact cons_ne_nil _ _
    · exact fun g hg => hdata g (mem_cons.mpr (.inl (mem_singleton.mp hg)))
    · rw [length_members_cons, roles_eq hsome]
      exact (hentries guid data hsome).size
    · exact countP_le_length
    · exact fun h => absurd h (Nat.lt_irrefl 1)
  exact imp_congr_right fun _ => hfinds.matched hsingle

/-- A queue of players without groups, with the mask and the dungeons of each. -/
def singles (entries : List (ℕ × RoleMask × List ℕ)) : LFGQueue :=
  entries.foldl (fun q e => q.addQueueData e.1 ⟨e.2.2, [(e.1, e.2.1)]⟩) .empty

theorem entries_singles (entries : List (ℕ × RoleMask × List ℕ)) (h : ∀ e ∈ entries, e.2.2 ≠ []) :
    Entries (singles entries) := by
  have hfold (entries : List (ℕ × RoleMask × List ℕ)) (q : LFGQueue) (hq : Entries q)
      (h : ∀ e ∈ entries, e.2.2 ≠ []) :
      Entries (entries.foldl (fun q e => q.addQueueData e.1 ⟨e.2.2, [(e.1, e.2.1)]⟩) q) := by
    induction entries generalizing q with
    | nil => exact hq
    | cons e entries ih =>
      exact ih _ (hq.addQueueData (accepted_single e.1 e.2.1 (h e mem_cons_self)) e.1)
        fun x hx => h x (mem_cons_of_mem e hx)
  exact hfold entries .empty nofun h

theorem singles_compatibles (entries : List (ℕ × RoleMask × List ℕ)) (key : List Char) :
    (singles entries).compatibles key = none := by
  have hfold (entries : List (ℕ × RoleMask × List ℕ)) (q : LFGQueue) :
      (entries.foldl (fun q e => q.addQueueData e.1 ⟨e.2.2, [(e.1, e.2.1)]⟩) q).compatibles =
        q.compatibles := by
    induction entries generalizing q with
    | nil => rfl
    | cons e entries ih =>
      rw [foldl_cons, ih, LFGQueue.addQueueData_eq]
  unfold singles
  rw [hfold]
  rfl

/-- All are online and queued, and nobody ignores anybody. -/
def peaceful : World :=
  { online := fun _ => true, ignores := fun _ _ => false, now := 0, urand := fun _ => 0
    state := fun _ => .queued
    oldState := fun _ => .none }

/-- A tank, a healer and three damage dealers. -/
def fiveWait : List (ℕ × RoleMask × List ℕ) :=
  [(1, 2, [7, 8]), (3, 8, [8]), (4, 8, [8]), (5, 8, [8]), (6, 4, [8])]

/-- The tank is new, and the others are found. -/
theorem fiveWait_found :
    (((∃ l, l.Sublist [3, 4, 5, 6] ∧ FullGroup peaceful (singles fiveWait) (1 :: l)) →
        (findNewGroups peaceful 5 ⟨singles fiveWait, []⟩ [1] [3, 4, 5, 6]).2.1 = .matched) ↔
      ((∃ l, l.Sublist [3, 4, 5, 6] ∧ FullGroup peaceful (singles fiveWait) (1 :: l)) →
        Proposable peaceful (singles fiveWait)
          (gather peaceful (singles fiveWait) [1] [3, 4, 5, 6]))) ∧
      (findNewGroups peaceful 5 ⟨singles fiveWait, []⟩ [1] [3, 4, 5, 6]).2.1 = .matched :=
  ⟨findNewGroups_complete_iff peaceful (singles fiveWait) 1 [3, 4, 5, 6]
    (entries_singles _ (by decide)) (by decide) (by decide +kernel) (fun _ _ => rfl)
    (singles_compatibles _) [], by decide +kernel⟩

/-- A healer for another dungeon stands before them. -/
def sixWait : List (ℕ × RoleMask × List ℕ) := fiveWait ++ [(2, 4, [7])]

/-- The group is still there, and the search, which takes the healer, does not find it. -/
theorem group_hidden :
    (∃ l, l.Sublist [2, 3, 4, 5, 6] ∧ FullGroup peaceful (singles sixWait) (1 :: l)) ∧
      (∀ key, (singles sixWait).compatibles key = none) ∧
      (findNewGroups peaceful 6 ⟨singles sixWait, []⟩ [1] [2, 3, 4, 5, 6]).2.1 ≠ .matched := by
  refine ⟨⟨[3, 4, 5, 6], by decide, ?_⟩, singles_compatibles _, by decide +kernel⟩
  constructor
  · decide +kernel
  · decide +kernel
  · decide +kernel
  · decide +kernel
  · exact fun _ _ _ _ _ => rfl
  · exact ⟨_, (checkGroupRoles_spec (by decide +kernel)).2 (by decide +kernel)⟩
  · exact ⟨8, by decide +kernel⟩

end ZerosCore.Lfg
