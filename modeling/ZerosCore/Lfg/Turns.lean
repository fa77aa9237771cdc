/-
# One turn of the search

`FindGroups` takes the first new entry and searches a group for it.  A match is to mean that a
proposal was made of the entry and some that wait, and no match that nothing but the cache has
changed.  Two things can go wrong: a match that is cached, or that a cached `BAD_STATES` has
become, is answered without a proposal; and the check of all entries but the new one makes a
proposal of its own, whose entries are still among the candidates.

A turn is right if neither can happen (`Calm`, `findGroup_turn`).
-/

import ZerosCore.Lfg.Keys
import Mathlib.Data.List.Sublists

namespace ZerosCore.Lfg

open Lib List Option

variable {w : World} {s s' : Search} {check check' all cur l : List ℕ} {guid front : ℕ}
  {key : List Char}

theorem allQueued_congr (h : ∀ g, g ∈ check ↔ g ∈ check') : w.allQueued check = w.allQueued check' := by
  have hiff (check check' : List ℕ) (h : ∀ g, g ∈ check ↔ g ∈ check')
      (hqueued : w.allQueued check = true) : w.allQueued check' = true := by
    unfold World.allQueued at hqueued ⊢
    rw [Bool.and_eq_true, decide_eq_true_eq, List.all_eq_true] at hqueued ⊢
    obtain ⟨hne, hall⟩ := hqueued
    refine ⟨?_, fun g hg => hall g ((h g).mpr hg)⟩
    obtain ⟨g, hg⟩ := exists_mem_of_ne_nil _ hne
    exact ne_nil_of_mem ((h g).mp hg)
  rw [Bool.eq_iff_iff]
  exact ⟨hiff _ _ h, hiff _ _ fun g => (h g).symm⟩

namespace Search

/-- A proposal was made of a list, and nothing but the cache has changed besides. -/
def Taken (w : World) (s : Search) (check : List ℕ) (s' : Search) : Prop :=
  ∃ s1 p, Cached s s1 ∧ p.queues = check ∧ Offer w s.queue p ∧
    s' = (s1.take p).setCompatibles check .matched

theorem Taken.of_cached {s1 : Search} (h : Cached s s1) (ht : Taken w s1 check s') :
    Taken w s check s' := by
  obtain ⟨s2, p, hcached, hqueues, hoffer, heq⟩ := ht
  exact ⟨s2, p, h.trans hcached, hqueues, hoffer.congr h.queueData.symm, heq⟩

theorem Outcome.quiet {r : Search × LfgCompatibility} (h : Outcome w s check r)
    (hdata : ∀ guid ∈ check, (s.queue.queueData guid).isSome) :
    (r.2 ≠ .matched → Cached s r.1) ∧ (r.2 = .matched → Taken w s check r.1) ∧
      (r.2 = .badStates → w.allQueued check = false) ∧
      r.1.queue.compatibles (concatenateGuids check) = some r.2 := by
  cases h with
  | refused c hc h =>
    refine ⟨fun _ => (Cached.refl s).setCompatibles check c, fun heq => ?_, fun heq => ?_,
      setCompatibles_self s check c⟩
    · have heq' : c = .matched := heq
      rw [heq'] at hc
      cases hc
    have heq' : c = .badStates := heq
    rw [heq'] at hc
    cases hc
  | missing guid hmem hnone h =>
    have hsome := hdata guid hmem
    rw [hnone] at hsome
    cases hsome
  | less h hless =>
    exact ⟨fun _ => (Cached.refl s).setCompatibles check _, nofun,
      nofun, setCompatibles_self s check _⟩
  | badStates h hfull hstates =>
    exact ⟨fun _ => (Cached.refl s).setCompatibles check _, nofun,
      fun _ => hstates, setCompatibles_self s check _⟩
  | matched p hqueues h =>
    exact ⟨fun hne => absurd rfl hne, fun _ => ⟨s, p, Cached.refl s, hqueues, h, rfl⟩,
      nofun, setCompatibles_self _ check _⟩

/-- **A check that makes no proposal of its own**: if no entries at the end of the list, fewer than
all, can be proposed, a match means a proposal of all and anything else changes the cache. -/
theorem checkCompatibility_quiet (hq : Entries s.queue)
    (hdata : ∀ guid ∈ check, (s.queue.queueData guid).isSome)
    (hapart : ∀ l, l <:+ check → l ≠ check → 2 ≤ l.length → ¬Proposable w s.queue l) :
    let r := checkCompatibility w s check
    (r.2 ≠ .matched → Cached s r.1) ∧ (r.2 = .matched → Taken w s check r.1) ∧
      (r.2 = .badStates → w.allQueued check = false) ∧
      (r.1.queue.compatibles (concatenateGuids check) = some r.2 ∨
        r.1.queue.compatibles (concatenateGuids check) =
          s.queue.compatibles (concatenateGuids check)) := by
  induction check with
  | nil =>
    exact ⟨fun _ => Cached.refl s, fun h => (by cases h), fun h => (by cases h), .inr rfl⟩
  | cons guid check ih =>
    have hall {s1 : Search} (hcached : Cached s s1) :
        let r := checkAll w s1 (guid :: check)
        (r.2 ≠ .matched → Cached s r.1) ∧ (r.2 = .matched → Taken w s (guid :: check) r.1) ∧
          (r.2 = .badStates → w.allQueued (guid :: check) = false) ∧
          (r.1.queue.compatibles (concatenateGuids (guid :: check)) = some r.2 ∨
            r.1.queue.compatibles (concatenateGuids (guid :: check)) =
              s.queue.compatibles (concatenateGuids (guid :: check))) := by
      have houtcome : Outcome w s1 (guid :: check) (checkAll w s1 (guid :: check)) :=
        checkAll_outcome (hq.congr hcached.queueData) (cons_ne_nil _ _)
      obtain ⟨hother, htaken, hstates, hkey⟩ := houtcome.quiet (by rwa [hcached.queueData])
      exact ⟨fun hne => hcached.trans (hother hne), fun heq => (htaken heq).of_cached hcached,
        hstates, .inl hkey⟩
    unfold checkCompatibility
    by_cases hlong : check.length + 1 > maxGroupSize
    · rw [if_pos hlong]
      exact ⟨fun _ => Cached.refl s, fun h => (by cases h), fun h => (by cases h), .inr rfl⟩
    rw [if_neg hlong]
    by_cases hmany : check.length + 1 > 2
    · rw [if_pos hmany]
      have hrest := ih (fun g hg => hdata g (mem_cons_of_mem guid hg)) fun l hl _ =>
        hapart l (hl.trans (suffix_cons guid check)) fun heq => by
          have hle := hl.length_le
          rw [heq, length_cons] at hle
          omega
      generalize checkCompatibility w s check = child at hrest
      obtain ⟨hother, htaken, -, -⟩ := hrest
      have hne : child.2 ≠ .matched := by
        intro heq
        obtain ⟨s1, p, -, hqueues, hoffer, -⟩ := htaken heq
        refine hapart check (suffix_cons guid check) (fun heq => ?_) (by omega)
          (hqueues ▸ hoffer.proposable)
        have hlength := congrArg List.length heq
        rw [length_cons] at hlength
        omega
      by_cases hbad : child.2.isIncompatible = true
      · rw [if_pos hbad]
        refine ⟨fun _ => (hother hne).setCompatibles _ _, fun heq => absurd heq hne,
          fun heq => ?_, .inl (setCompatibles_self _ _ _)⟩
        rw [heq] at hbad
        cases hbad
      rw [if_neg hbad]
      exact hall (hother hne)
    rw [if_neg hmany]
    exact hall (Cached.refl s)

/-- What goes right in a turn: nothing is cached for the first entry with some that wait that would
be answered as a match, and no two or more of those that wait can be proposed without it. -/
structure Calm (w : World) (s : Search) (front : ℕ) (cur : List ℕ) : Prop where
  cached : ∀ l, l.Sublist cur →
    s.queue.compatibles (concatenateGuids (front :: l)) ≠ some .matched ∧
      (s.queue.compatibles (concatenateGuids (front :: l)) = some .badStates →
        w.allQueued (front :: l) = false)
  apart : ∀ l, l.Sublist cur → 2 ≤ l.length → ¬Proposable w s.queue l

/-- What a turn knows of the entries. -/
structure Waits (s : Search) (front : ℕ) (cur : List ℕ) : Prop where
  entries : Entries s.queue
  data : ∀ guid ∈ front :: cur, (s.queue.queueData guid).isSome
  nodup : front ∉ cur

theorem Waits.congr (h : Waits s front cur) (hdata : s'.queue.queueData = s.queue.queueData) :
    Waits s' front cur := by
  obtain ⟨hentries, hsome, hnodup⟩ := h
  rw [← hdata] at hsome
  exact ⟨hentries.congr hdata, hsome, hnodup⟩

theorem Proposable.congr {q q' : LFGQueue} (h : q'.queueData = q.queueData)
    (hc : Proposable w q check) : Proposable w q' check := by
  obtain ⟨hcompatible, hfull, hqueued⟩ := hc
  rw [← members_congr h] at hfull
  exact ⟨hcompatible.congr h, hfull, hqueued⟩

/-- **An answer in a turn that goes right** is a match with a proposal, or changes the cache and the
rest of the turn goes right too. -/
theorem getCompatibility_calm (h : Waits s front cur) (hcalm : Calm w s front cur)
    (hl : l.Sublist cur) :
    ((getCompatibility w s (front :: l)).2 = .matched →
        Taken w s (front :: l) (getCompatibility w s (front :: l)).1) ∧
      ((getCompatibility w s (front :: l)).2 ≠ .matched →
        Cached s (getCompatibility w s (front :: l)).1 ∧
          Calm w (getCompatibility w s (front :: l)).1 front cur) := by
  obtain ⟨hnone, hstates⟩ := hcalm.cached l hl
  have hdata : ∀ guid ∈ front :: l, (s.queue.queueData guid).isSome := fun guid hguid =>
    h.data guid ((mem_cons.mp hguid).elim (fun heq => mem_cons.mpr (.inl heq))
      fun hmem => mem_cons_of_mem front (hl.subset hmem))
  unfold getCompatibility
  by_cases hpending : s.queue.getCompatibles (front :: l) = .pending
  · rw [if_pos hpending]
    have hapart : ∀ t, t <:+ front :: l → t ≠ front :: l → 2 ≤ t.length → ¬Proposable w s.queue t := by
      intro t ht hne hlength
      rcases suffix_cons_iff.mp ht with heq | hsuf
      · exact absurd heq hne
      · exact hcalm.apart t (hsuf.sublist.trans hl) hlength
    obtain ⟨hother, htaken, hqueued, hkey⟩ := checkCompatibility_quiet (w := w) h.entries hdata hapart
    have hcache (key : List Char) (hkey : ∀ t, t <:+ front :: l → t ≠ [] → key ≠ concatenateGuids t) :=
      checkCompatibility_compatibles (w := w) h.entries hdata hkey
    generalize checkCompatibility w s (front :: l) = r at hother htaken hqueued hkey hcache
    have hstay : ¬(r.2 = .badStates ∧ w.allQueued (front :: l) = true) := fun hboth =>
      absurd ((hqueued hboth.1).symm.trans hboth.2) Bool.false_ne_true
    rw [if_neg hstay]
    refine ⟨htaken, fun hne => ⟨hother hne, fun l' hl' => ?_, fun t ht hlength hcan => ?_⟩⟩
    · by_cases hsame : concatenateGuids (front :: l') = concatenateGuids (front :: l)
      · rcases hkey with hkey | hkey
        · rw [hsame, hkey, allQueued_congr (mem_iff_of_key hsame)]
          exact ⟨fun heq => hne (some.inj heq), fun heq => hqueued (some.inj heq)⟩
        rw [hsame, hkey, allQueued_congr (mem_iff_of_key hsame)]
        exact ⟨hnone, hstates⟩
      rw [hcache]
      · exact hcalm.cached l' hl'
      intro t ht htne heq
      rcases suffix_cons_iff.mp ht with rfl | hsuf
      · exact hsame heq
      have hin := (mem_iff_of_key heq front).mp mem_cons_self
      exact h.nodup (hl.subset (hsuf.subset hin))
    · exact hcalm.apart t ht hlength (hcan.congr (hother hne).queueData.symm)
  rw [if_neg hpending]
  have hvalue : s.queue.compatibles (concatenateGuids (front :: l)) =
      some (s.queue.getCompatibles (front :: l)) := by
    unfold LFGQueue.getCompatibles at hpending ⊢
    cases hkey : s.queue.compatibles (concatenateGuids (front :: l)) with
    | none =>
      rw [hkey] at hpending
      exact absurd rfl hpending
    | some c => rfl
  rw [hvalue] at hnone hstates
  have hstay : ¬(s.queue.getCompatibles (front :: l) = .badStates ∧
      w.allQueued (front :: l) = true) := fun hboth =>
    absurd ((hstates (congrArg some hboth.1)).symm.trans hboth.2) Bool.false_ne_true
  rw [if_neg hstay]
  exact ⟨fun heq => absurd (congrArg some heq) hnone, fun _ => ⟨Cached.refl s, hcalm⟩⟩

/-- What a search in a turn comes to: a proposal of the first entry and some that wait, or a change
of the cache. -/
structure Turns (w : World) (s : Search) (front : ℕ) (cur all : List ℕ)
    (r : Search × LfgCompatibility × List ℕ) : Prop where
  matched : r.2.1 = .matched → ∃ l, l.Sublist cur ∧ Taken w s (front :: l) r.1
  other : r.2.1 ≠ .matched → Cached s r.1 ∧ Calm w r.1 front cur ∧ r.2.2 <:+ all

theorem tryQueued_turns {find : Search → List ℕ → List ℕ → Search × LfgCompatibility × List ℕ}
    (hfind : ∀ s l all, (l ++ all).Sublist cur → Waits s front cur → Calm w s front cur →
      Turns w s front cur all (find s (front :: l) all))
    (left : ℕ) (hl : (l ++ all).Sublist cur) (h : Waits s front cur) (hcalm : Calm w s front cur) :
    Turns w s front cur all (tryQueued find left s (front :: l) all) := by
  induction left generalizing s all with
  | zero =>
    exact ⟨nofun, fun _ => ⟨Cached.refl s, hcalm, suffix_rfl⟩⟩
  | succ left ih =>
    cases all with
    | nil => exact ⟨nofun, fun _ => ⟨Cached.refl s, hcalm, suffix_rfl⟩⟩
    | cons guid all =>
      have hone := hfind s (l ++ [guid]) all (by rwa [append_assoc, singleton_append]) h hcalm
      unfold tryQueued
      rw [cons_append]
      generalize find s (front :: (l ++ [guid])) all = r at hone
      by_cases hr : r.2.1 = .matched
      · rw [if_pos hr]
        exact ⟨fun _ => hone.matched hr, fun hne => absurd hr hne⟩
      rw [if_neg hr]
      obtain ⟨hcached, hcalm', hsuf⟩ := hone.other hr
      have hsub : (l ++ r.2.2).Sublist cur :=
        ((Sublist.refl l).append (hsuf.sublist.cons guid)).trans hl
      obtain ⟨hmatched, hother⟩ := ih hsub (h.congr hcached.queueData) hcalm'
      refine ⟨fun heq => ?_, fun hne => ?_⟩
      · obtain ⟨l', hl', htaken⟩ := hmatched heq
        exact ⟨l', hl', htaken.of_cached hcached⟩
      obtain ⟨hcached', hcalm'', hsuf'⟩ := hother hne
      exact ⟨hcached.trans hcached', hcalm'', (hsuf'.trans hsuf).trans (suffix_cons _ _)⟩

/-- **The search of a turn**, by induction on its depth. -/
theorem findNewGroups_turns (fuel : ℕ) (hl : (l ++ all).Sublist cur) (h : Waits s front cur)
    (hcalm : Calm w s front cur) :
    Turns w s front cur all (findNewGroups w fuel s (front :: l) all) := by
  induction fuel generalizing s l all with
  | zero =>
    exact ⟨nofun, fun _ => ⟨Cached.refl s, hcalm, suffix_rfl⟩⟩
  | succ fuel ih =>
    have hsub : l.Sublist cur := (sublist_append_left l all).trans hl
    obtain ⟨htaken, hother⟩ := getCompatibility_calm h hcalm hsub
    unfold findNewGroups
    generalize getCompatibility w s (front :: l) = r at htaken hother
    by_cases hless : r.2 ≠ .withLessPlayers
    · rw [if_pos hless]
      refine ⟨fun heq => ⟨l, hsub, htaken heq⟩, fun hne => ?_⟩
      obtain ⟨hcached, hcalm'⟩ := hother hne
      exact ⟨hcached, hcalm', suffix_rfl⟩
    rw [if_neg hless]
    rw [ne_eq, not_not] at hless
    obtain ⟨hcached, hcalm'⟩ := hother (by
      rw [hless]
      decide)
    obtain ⟨hmatched, hother'⟩ := tryQueued_turns (fun s l all hl h hcalm => ih hl h hcalm)
      all.length hl (h.congr hcached.queueData) hcalm'
    refine ⟨fun heq => ?_, fun hne => ?_⟩
    · obtain ⟨l', hl', htaken'⟩ := hmatched heq
      exact ⟨l', hl', htaken'.of_cached hcached⟩
    obtain ⟨hcached', hcalm'', hsuf⟩ := hother' hne
    exact ⟨hcached.trans hcached', hcalm'', hsuf⟩

/-! ### Where the entries are -/

/-- How often an entry stands in the lists of the queue and in the proposals that were made. -/
def occurs (s : Search) (guid : ℕ) : ℕ :=
  s.queue.newToQueue.count guid + s.queue.currentQueue.count guid +
    (s.made.flatMap LfgProposal.queues).count guid

/-- The entries in the lists have data. -/
def Listed (q : LFGQueue) : Prop :=
  ∀ guid, guid ∈ q.newToQueue ∨ guid ∈ q.currentQueue → (q.queueData guid).isSome

end Search

theorem count_filter_ite (l : List ℕ) (P : ℕ → Prop) [DecidablePred P] (g : ℕ) :
    (l.filter (P ·)).count g = if P g then l.count g else 0 := by
  by_cases hg : P g
  · rw [if_pos hg]
    exact count_filter (decide_eq_true hg)
  rw [if_neg hg, count_eq_zero]
  exact fun hin => hg (of_decide_eq_true (mem_filter.mp hin).2)

theorem count_filter_ne (l : List ℕ) (front g : ℕ) :
    (l.filter (· ≠ front)).count g = if g = front then 0 else l.count g := by
  rw [count_filter_ite, ite_not]

theorem count_filter_notMem (l taken : List ℕ) (g : ℕ) :
    (l.filter (· ∉ taken)).count g = if g ∈ taken then 0 else l.count g := by
  rw [count_filter_ite, ite_not]

namespace Search

/-- What a turn, or several, comes to: the data are the same, each entry stands where it stood or
elsewhere, but as often, and proposals have been added that could be made. -/
structure Moved (w : World) (s s' : Search) : Prop where
  queueData : s'.queue.queueData = s.queue.queueData
  occurs : ∀ g, s'.occurs g = s.occurs g
  listed : Listed s'.queue
  made : ∃ added, s'.made = s.made ++ added ∧ ∀ p ∈ added, Offer w s.queue p

theorem Moved.refl (h : Listed s.queue) : Moved w s s :=
  ⟨rfl, fun _ => rfl, h, [], (append_nil _).symm, nofun⟩

theorem Moved.trans {s'' : Search} (h : Moved w s s') (h' : Moved w s' s'') : Moved w s s'' := by
  obtain ⟨added, hmade, hadded⟩ := h.made
  obtain ⟨added', hmade', hadded'⟩ := h'.made
  refine ⟨h'.queueData.trans h.queueData, fun g => (h'.occurs g).trans (h.occurs g), h'.listed,
    added ++ added', by rw [hmade', hmade, append_assoc], fun p hp => ?_⟩
  rcases mem_append.mp hp with hp | hp
  · exact hadded p hp
  · exact (hadded' p hp).congr h.queueData.symm

/-- The entries in the lists are those that were in them, if none has come in. -/
theorem listed_of_occurs {added : List LfgProposal} (h : Listed s.queue)
    (hdata : s'.queue.queueData = s.queue.queueData) (hoccurs : ∀ g, s'.occurs g = s.occurs g)
    (hmade : s'.made = s.made ++ added) : Listed s'.queue := by
  intro g hg
  have hsame := hoccurs g
  unfold occurs at hsame
  rw [hmade, flatMap_append, count_append] at hsame
  rw [hdata]
  refine h g ?_
  rw [← count_pos_iff, ← count_pos_iff] at hg ⊢
  omega

/-- The first entry and those taken with it stand in the proposal that is made of them. -/
theorem occurs_taken {p : LfgProposal} {g : ℕ} (honce : s.occurs g ≤ 1)
    (hfront : front ∈ s.queue.newToQueue) (hl : l.Sublist s.queue.currentQueue)
    (hnew : s'.queue.newToQueue = (s.queue.newToQueue.filter (· ≠ front)).filter (· ∉ front :: l))
    (hcurrent : s'.queue.currentQueue = s.queue.currentQueue.filter (· ∉ front :: l))
    (hmade : s'.made = s.made ++ [p]) (hqueues : p.queues = front :: l) :
    s'.occurs g = s.occurs g := by
  have hpos := count_pos_iff.mpr hfront
  have hle := hl.count_le g
  unfold occurs at honce ⊢
  rw [hnew, hcurrent, hmade, flatMap_append, count_append, flatMap_singleton, hqueues,
    count_filter_notMem, count_filter_ne, count_filter_notMem]
  by_cases hg : g = front
  · subst hg
    rw [if_pos mem_cons_self, if_pos mem_cons_self, count_cons_self]
    omega
  rw [count_cons_of_ne (Ne.symm hg)]
  by_cases hmem : g ∈ l
  · have hin := mem_cons_of_mem front hmem
    have hpos' := count_pos_iff.mpr hmem
    rw [if_pos hin, if_pos hin]
    omega
  have hout : g ∉ front :: l := fun hin => (mem_cons.mp hin).elim hg hmem
  rw [if_neg hout, if_neg hg, if_neg hout, count_eq_zero.mpr hmem]
  omega

/-- The first entry waits with the others. -/
theorem occurs_waiting {g : ℕ} (honce : s.occurs g ≤ 1)
    (hfront : front ∈ s.queue.newToQueue)
    (hnew : s'.queue.newToQueue = s.queue.newToQueue.filter (· ≠ front))
    (hcurrent : s'.queue.currentQueue = s.queue.currentQueue ++ [front])
    (hmade : s'.made = s.made) : s'.occurs g = s.occurs g := by
  have hpos := count_pos_iff.mpr hfront
  unfold occurs at honce ⊢
  rw [hnew, hcurrent, hmade, count_append, count_filter_ne]
  by_cases hg : g = front
  · subst hg
    rw [if_pos rfl, count_singleton_self]
    omega
  rw [if_neg hg, count_singleton, if_neg (by simpa using Ne.symm hg)]
  omega

/-- **A turn that goes right** leaves each entry once where it was once: the first entry waits, or
is in a proposal with those that have left the list. -/
theorem findGroup_turn (hq : Entries s.queue) (honce : ∀ g, s.occurs g ≤ 1)
    (hlisted : Listed s.queue) (hfront : front ∈ s.queue.newToQueue)
    (hcalm : Calm w s front s.queue.currentQueue) : Moved w s (findGroup w s front) := by
  have hone := honce front
  have hpos := count_pos_iff.mpr hfront
  unfold occurs at hone
  have hnotin : front ∉ s.queue.currentQueue := fun hin => by
    have hpos' := count_pos_iff.mpr hin
    omega
  set t : Search := { s with queue := s.queue.removeFromNewQueue front }
  have hremoved : s.queue.queueData = t.queue.queueData := rfl
  have hwaits : Waits t front s.queue.currentQueue := by
    refine ⟨hq, fun guid hguid => ?_, hnotin⟩
    rcases mem_cons.mp hguid with rfl | hmem
    · exact hlisted guid (.inl hfront)
    · exact hlisted guid (.inr hmem)
  have hcalm' : Calm w t front s.queue.currentQueue :=
    ⟨hcalm.cached, fun l hl hlength hcan => hcalm.apart l hl hlength (hcan.congr hremoved)⟩
  obtain ⟨hmatched, hother⟩ := findNewGroups_turns (l := []) (s.queue.currentQueue.length + 1)
    (Sublist.refl s.queue.currentQueue) hwaits hcalm'
  unfold findGroup
  have hsame : t.queue.currentQueue = s.queue.currentQueue := rfl
  dsimp only
  rw [hsame]
  generalize findNewGroups w (s.queue.currentQueue.length + 1) t [front]
    s.queue.currentQueue = r at hmatched hother
  by_cases hr : r.2.1 = .matched
  · rw [if_pos hr]
    obtain ⟨l, hl, s1, p, hcached, hqueues, hoffer, heq⟩ := hmatched hr
    obtain ⟨hnew, hcurrent, hdata, -⟩ := s1.take_lists p
    rw [hcached.newToQueue, hqueues] at hnew
    rw [hcached.currentQueue, hqueues] at hcurrent
    rw [hcached.queueData] at hdata
    rw [heq]
    have hmade : ((s1.take p).setCompatibles (front :: l) .matched).made = s.made ++ [p] :=
      congrArg (· ++ [p]) hcached.made
    have hoccurs (g : ℕ) : ((s1.take p).setCompatibles (front :: l) .matched).occurs g =
        s.occurs g := occurs_taken (honce g) hfront hl hnew hcurrent hmade hqueues
    refine ⟨hdata, hoccurs, listed_of_occurs hlisted hdata hoccurs hmade, [p], hmade,
      fun p' hp' => ?_⟩
    rw [mem_singleton.mp hp']
    exact hoffer.congr hremoved
  rw [if_neg hr]
  obtain ⟨hcached, -, -⟩ := hother hr
  have hmade : r.1.made = s.made ++ [] := hcached.made.trans (append_nil _).symm
  have hoccurs (g : ℕ) : occurs { r.1 with queue := r.1.queue.addToCurrentQueue front } g =
      s.occurs g := occurs_waiting (honce g) hfront hcached.newToQueue
    (congrArg (· ++ [front]) hcached.currentQueue) hcached.made
  exact ⟨hcached.queueData, hoccurs, listed_of_occurs hlisted hcached.queueData hoccurs hmade, [],
    hmade, nofun⟩

/-- All turns of `FindGroups` go right. -/
def CalmFrom (w : World) : ℕ → Search → Prop
  | 0, _ => True
  | left + 1, s =>
    match s.queue.newToQueue with
    | [] => True
    | front :: _ => Calm w s front s.queue.currentQueue ∧ CalmFrom w left (findGroup w s front)

/-- All turns go right by the numbers alone: of those that wait none together are as many players as
a group has. -/
def fewFrom (w : World) : ℕ → Search → Bool
  | 0, _ => true
  | left + 1, s =>
    match s.queue.newToQueue with
    | [] => true
    | front :: _ =>
      s.queue.currentQueue.sublists.all (fun l =>
        s.queue.compatibles (concatenateGuids (front :: l)) ≠ some .matched &&
          (s.queue.compatibles (concatenateGuids (front :: l)) ≠ some .badStates ||
            !w.allQueued (front :: l)) &&
          (members s.queue l).length ≠ maxGroupSize) && fewFrom w left (findGroup w s front)

theorem calmFrom_of_fewFrom (left : ℕ) (h : fewFrom w left s) : CalmFrom w left s := by
  induction left generalizing s with
  | zero => trivial
  | succ left ih =>
    unfold fewFrom at h
    unfold CalmFrom
    split at h
    · trivial
    rename_i front rest heq
    obtain ⟨hall, hrest⟩ := Bool.and_eq_true_iff.mp h
    refine ⟨⟨fun l hl => ?_, fun l hl _ hproposable => ?_⟩, ih hrest⟩
    · have hone := all_eq_true.mp hall l (mem_sublists.mpr hl)
      simp only [Bool.and_eq_true, Bool.or_eq_true, decide_eq_true_eq, Bool.not_eq_true'] at hone
      exact ⟨hone.1.1, fun hbad => hone.1.2.resolve_left fun hne => hne hbad⟩
    · have hone := all_eq_true.mp hall l (mem_sublists.mpr hl)
      simp only [Bool.and_eq_true, decide_eq_true_eq] at hone
      exact hone.2 hproposable.full

/-- **The turns of a search**, by induction on the new entries that are left. -/
theorem findGroupsFrom_turns (left : ℕ) (hq : Entries s.queue) (honce : ∀ g, s.occurs g ≤ 1)
    (hlisted : Listed s.queue) (hcalm : CalmFrom w left s) : Moved w s (findGroupsFrom w left s) := by
  induction left generalizing s with
  | zero => exact Moved.refl hlisted
  | succ left ih =>
    unfold CalmFrom at hcalm
    unfold findGroupsFrom
    split
    · exact Moved.refl hlisted
    rename_i front rest heq
    rw [heq] at hcalm
    have hone := findGroup_turn hq honce hlisted (heq ▸ mem_cons_self) hcalm.1
    refine hone.trans (ih (hq.congr hone.queueData) (fun g => ?_) hone.listed hcalm.2)
    rw [hone.occurs]
    exact honce g

end Search
end ZerosCore.Lfg
