/-
# The keys of the compatibility cache

`ConcatenateGuids` of `src/server/game/DungeonFinding/LFGQueue.cpp` writes the guids of a list
in decimal, in order and each once, with `|` between them.  The guids can be read back from a
key (`mem_iff_of_key`), so that two lists have one key only if they have the same entries.
`CheckCompatibility` writes the keys of its list and of what is left of it without the first
entries (`checkCompatibility_compatibles`).
-/

import ZerosCore.Lfg.Compatibility
import Mathlib.Data.List.Dedup

namespace ZerosCore.Lfg

open Lib List

variable {w : World} {s : Search} {check check' l : List ℕ} {guid g : ℕ} {key : List Char}

theorem mem_guidSet : g ∈ guidSet l ↔ g ∈ l := by
  unfold guidSet
  rw [mem_insertionSort, mem_dedup]

theorem decimal_injective : Function.Injective decimal := by
  intro g g' h
  have hback := congrArg (Nat.ofDigitChars 10 · 0) h
  unfold decimal at hback
  rwa [Nat.ofDigitChars_toDigits (by decide) (by decide),
    Nat.ofDigitChars_toDigits (by decide) (by decide)] at hback

theorem word_decimal (guid : ℕ) : Word '|' (decimal guid) := by
  constructor
  · exact Nat.toDigits_ne_nil
  intro hmem
  exact absurd (Nat.isDigit_of_mem_toDigits (by decide) (by decide) hmem) (by decide)

/-- **The guids can be read back from a key.** -/
theorem guidSet_eq_of_key (h : concatenateGuids check = concatenateGuids check') :
    guidSet check = guidSet check' := by
  have hword (check : List ℕ) : ∀ word ∈ (guidSet check).map decimal, Word '|' word := by
    intro word hword
    obtain ⟨g, -, rfl⟩ := mem_map.mp hword
    exact word_decimal g
  exact decimal_injective.list_map (joined_inj (hword check) (hword check') h)

theorem mem_iff_of_key (h : concatenateGuids check = concatenateGuids check') (g : ℕ) :
    g ∈ check ↔ g ∈ check' := by
  rw [← mem_guidSet, guidSet_eq_of_key h, mem_guidSet]

/-- **A key stands for the entries**, whatever their order and however often each is listed. -/
theorem concatenateGuids_eq_iff :
    concatenateGuids check = concatenateGuids check' ↔ ∀ g, g ∈ check ↔ g ∈ check' := by
  refine ⟨mem_iff_of_key, fun h => ?_⟩
  have hperm : check.dedup ~ check'.dedup :=
    (perm_ext_iff_of_nodup (nodup_dedup _) (nodup_dedup _)).mpr fun g => by
      rw [mem_dedup, h, mem_dedup]
  have hset : guidSet check = guidSet check' := by
    unfold guidSet
    exact ((perm_insertionSort ..).trans (hperm.trans (perm_insertionSort ..).symm)).eq_of_pairwise'
      (pairwise_insertionSort ..) (pairwise_insertionSort ..)
  unfold concatenateGuids
  rw [hset]

namespace Search

theorem setCompatibles_of_ne {c : LfgCompatibility} (h : key ≠ concatenateGuids check) :
    (s.setCompatibles check c).queue.compatibles key = s.queue.compatibles key := if_neg h

theorem setCompatibles_self (s : Search) (check : List ℕ) (c : LfgCompatibility) :
    (s.setCompatibles check c).queue.compatibles (concatenateGuids check) = some c := if_pos rfl

theorem Outcome.compatibles {r : Search × LfgCompatibility} (h : Outcome w s check r)
    (hdata : ∀ guid ∈ check, (s.queue.queueData guid).isSome)
    (hkey : key ≠ concatenateGuids check) :
    r.1.queue.compatibles key = s.queue.compatibles key := by
  cases h with
  | refused c hc h | less h hless | badStates h hfull hstates => exact setCompatibles_of_ne hkey
  | missing guid hmem hnone h =>
    have hsome := hdata guid hmem
    rw [hnone] at hsome
    cases hsome
  | matched p hqueues h =>
    rw [setCompatibles_of_ne hkey, (s.take_lists p).2.2.2]

/-- **What `CheckCompatibility` caches**, of entries that have data: answers for its list and for
what is left of it without the first entries. -/
theorem checkCompatibility_compatibles (hq : Entries s.queue)
    (hdata : ∀ guid ∈ check, (s.queue.queueData guid).isSome)
    (hkey : ∀ l, l <:+ check → l ≠ [] → key ≠ concatenateGuids l) :
    (checkCompatibility w s check).1.queue.compatibles key = s.queue.compatibles key := by
  induction check with
  | nil => rfl
  | cons guid check ih =>
    have hself := hkey (guid :: check) suffix_rfl (cons_ne_nil _ _)
    have hrest := ih (fun g hg => hdata g (mem_cons_of_mem guid hg))
      fun l hl => hkey l (hl.trans (suffix_cons guid check))
    have hextends := checkCompatibility_extends (w := w) hq check
    have hall {s' : Search} (hq' : Entries s'.queue)
        (hsame : s'.queue.queueData = s.queue.queueData) :
        (checkAll w s' (guid :: check)).1.queue.compatibles key = s'.queue.compatibles key :=
      (checkAll_outcome hq' (cons_ne_nil _ _)).compatibles (by rwa [hsame]) hself
    unfold checkCompatibility
    split
    · rfl
    split
    · dsimp only
      split
      · exact (setCompatibles_of_ne hself).trans hrest
      · exact (hall (hq.congr hextends.queueData) hextends.queueData).trans hrest
    · exact hall hq rfl

end Search
end ZerosCore.Lfg
