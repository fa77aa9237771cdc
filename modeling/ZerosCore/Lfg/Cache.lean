/-
# What the compatibility cache holds

`CompatibleMapStore` of `src/server/game/DungeonFinding/LFGQueue.cpp` in every state that calls
of the queue lead to.  `CheckCompatibility` reads nothing of the cache, so that its answer is a
function of the data of the entries and of what it asks of the manager (`answer`), and each
state that it stores is its answer for a list with that key.

A stored state stays while the states of the players change: `FindNewGroups` only turns a
stored `BAD_STATES` into `MATCH` when all entries are queued.  And an entry's data may be
replaced without a call that clears the cache.  So a stored state is the answer for the data it
was calculated from, with the states of when it was stored last (`cached_as_calculated`).
-/

import ZerosCore.Lfg.Completeness
import ZerosCore.Lfg.Turns

namespace ZerosCore.Lfg

open Lib List Option

variable {w : World} {q q' : LFGQueue} {s s' : Search} {check l : List ℕ} {guid : ℕ}
  {key : List Char} {c : LfgCompatibility}

def LFGQueue.removeQueueData (q : LFGQueue) (guid : ℕ) : LFGQueue :=
  { q with queueData := fun g => if g = guid then none else q.queueData g }

/-- A call of the queue that changes its entries or its cache. -/
inductive QueueCall where
  | addToQueue (guid : ℕ)
  | addQueueData (guid : ℕ) (data : LfgQueueData)
  | removeFromQueue (guid : ℕ)
  | removeQueueData (guid : ℕ)
  | findGroups (w : World)

def call (q : LFGQueue) : QueueCall → LFGQueue
  | .addToQueue guid => q.addToQueue guid
  | .addQueueData guid data => q.addQueueData guid data
  | .removeFromQueue guid => q.removeFromQueue guid
  | .removeQueueData guid => q.removeQueueData guid
  | .findGroups w => (Search.findGroups w ⟨q, []⟩).queue

def queueAfter (calls : List QueueCall) : LFGQueue := calls.foldl call .empty

/-- What `CheckCompatibility` answers without a cache. -/
def fromScratch (w : World) (q : LFGQueue) (check : List ℕ) : LfgCompatibility :=
  (Search.checkCompatibility w ⟨{ q with compatibles := fun _ => none }, []⟩ check).2

/-! ### The answer as a function of the data -/

namespace Search

/-- The answer for compatible entries. -/
def offered (w : World) (numPlayers : ℕ) (check : List ℕ) : LfgCompatibility :=
  if numPlayers ≠ maxGroupSize then .withLessPlayers
  else if !w.allQueued check then .badStates
  else .matched

/-- The answer of `checkEntries`. -/
def answerEntries (w : World) (q : LFGQueue) (t : Tally) (check : List ℕ) : LfgCompatibility :=
  let roles := proposalRoles w q check
  if (t.numPlayers + 256 - roles.length % 256) % 256 ≠ 0 then .hasIgnores
  else if !(checkGroupRoles roles).1 then .noRoles
  else if proposalDungeons q check = [] then .noDungeons
  else offered w t.numPlayers check

/-- The answer of `checkAll`. -/
def answerAll (w : World) (q : LFGQueue) (check : List ℕ) : LfgCompatibility :=
  match countPlayers w q check ⟨0, 0, 0, []⟩ with
  | .error _ => .pending
  | .ok t =>
    if check.length = 1 ∧ t.numPlayers ≠ maxGroupSize then .withLessPlayers
    else if t.numLfgGroups > 1 then .multipleLfgGroups
    else if t.numPlayers > maxGroupSize then .tooMuchPlayers
    else if check.length = 1 then offered w t.numPlayers check
    else answerEntries w q t check

/-- The answer of `CheckCompatibility`. -/
def answer (w : World) (q : LFGQueue) : List ℕ → LfgCompatibility
  | [] => .wrongGroupSize
  | guid :: check =>
    if check.length + 1 > maxGroupSize then .wrongGroupSize
    else if check.length + 1 > 2 then
      if (answer w q check).isIncompatible then answer w q check
      else answerAll w q (guid :: check)
    else answerAll w q (guid :: check)

/-- A check answers, keeps the data of all entries, and stores its answer at most. -/
structure Answers (s : Search) (check : List ℕ) (c : LfgCompatibility)
    (r : Search × LfgCompatibility) : Prop where
  answer_eq : r.2 = c
  queueData : r.1.queue.queueData = s.queue.queueData
  cached : ∀ key v, r.1.queue.compatibles key = some v →
    s.queue.compatibles key = some v ∨ key = concatenateGuids check ∧ v = c

theorem answers_setCompatibles (hdata : s'.queue.queueData = s.queue.queueData)
    (hcached : s'.queue.compatibles = s.queue.compatibles) (check : List ℕ) (c : LfgCompatibility) :
    Answers s check c (s'.setCompatibles check c, c) := by
  refine ⟨rfl, hdata, fun key v hv => ?_⟩
  change (if key = concatenateGuids check then some c else s'.queue.compatibles key) = some v at hv
  by_cases hkey : key = concatenateGuids check
  · rw [if_pos hkey] at hv
    exact .inr ⟨hkey, (some.inj hv).symm⟩
  rw [if_neg hkey, hcached] at hv
  exact .inl hv

theorem propose_answers (w : World) (s : Search) (t : Tally) (check : List ℕ) (roles : RolesMap)
    (dungeons : List ℕ) :
    Answers s check (offered w t.numPlayers check) (propose w s t check roles dungeons) := by
  unfold propose offered
  by_cases hless : t.numPlayers ≠ maxGroupSize
  · rw [if_pos hless, if_pos hless]
    exact answers_setCompatibles rfl rfl check _
  rw [if_neg hless, if_neg hless]
  cases hqueued : w.allQueued check with
  | false => exact answers_setCompatibles rfl rfl check _
  | true =>
    obtain ⟨-, -, hdata, hcached⟩ := s.take_lists (proposal w t check roles dungeons)
    exact answers_setCompatibles hdata hcached check _

theorem checkEntries_answers (w : World) (s : Search) (t : Tally) (check : List ℕ) :
    Answers s check (answerEntries w s.queue t check) (checkEntries w s t check) := by
  unfold checkEntries answerEntries
  dsimp only
  split
  · exact answers_setCompatibles rfl rfl check _
  split
  · exact answers_setCompatibles rfl rfl check _
  split
  · exact answers_setCompatibles rfl rfl check _
  · exact propose_answers w s t check _ _

theorem answers_missing (check : List ℕ) (hnone : s.queue.queueData guid = none) :
    Answers s check .pending ({ s with queue := s.queue.removeFromQueue guid }, .pending) := by
  refine ⟨rfl, ?_, fun key v hv => ?_⟩
  · funext g
    change (if g = guid then none else s.queue.queueData g) = _
    split
    · rename_i heq
      rw [heq, hnone]
    · rfl
  change (if decimal guid <:+: key then none else s.queue.compatibles key) = some v at hv
  split at hv
  · cases hv
  · exact .inl hv

theorem checkAll_answers (w : World) (s : Search) (check : List ℕ) :
    Answers s check (answerAll w s.queue check) (checkAll w s check) := by
  unfold checkAll answerAll
  cases hcount : countPlayers w s.queue check ⟨0, 0, 0, []⟩ with
  | error guid => exact answers_missing check (countPlayers_error hcount).2
  | ok t =>
    dsimp only
    by_cases hsingle : check.length = 1 ∧ t.numPlayers ≠ maxGroupSize
    · rw [if_pos hsingle, if_pos hsingle]
      exact answers_setCompatibles rfl rfl check _
    rw [if_neg hsingle, if_neg hsingle]
    by_cases hgroups : t.numLfgGroups > 1
    · rw [if_pos hgroups, if_pos hgroups]
      exact answers_setCompatibles rfl rfl check _
    rw [if_neg hgroups, if_neg hgroups]
    by_cases hplayers : t.numPlayers > maxGroupSize
    · rw [if_pos hplayers, if_pos hplayers]
      exact answers_setCompatibles rfl rfl check _
    rw [if_neg hplayers, if_neg hplayers]
    match check with
    | [] => exact checkEntries_answers w s t []
    | [guid] => exact propose_answers w s t [guid] _ _
    | guid :: guid' :: check =>
      exact checkEntries_answers w s t (guid :: guid' :: check)

def SameData (q q' : LFGQueue) (check : List ℕ) : Prop :=
  ∀ g ∈ check, q'.queueData g = q.queueData g

theorem SameData.tail (h : SameData q q' (guid :: check)) : SameData q q' check := fun g hg =>
  h g (mem_cons_of_mem guid hg)

section

variable (h : SameData q q' check)

include h

theorem SameData.roles {g : ℕ} (hg : g ∈ check) : q'.roles g = q.roles g := by
  unfold LFGQueue.roles
  rw [h g hg]

theorem SameData.dungeons {g : ℕ} (hg : g ∈ check) : q'.dungeons g = q.dungeons g := by
  unfold LFGQueue.dungeons
  rw [h g hg]

theorem countPlayers_congr (t : Tally) : countPlayers w q' check t = countPlayers w q check t := by
  induction check generalizing t with
  | nil => rfl
  | cons guid check ih =>
    unfold countPlayers
    rw [h guid mem_cons_self]
    split
    · cases q.queueData guid with
      | none => rfl
      | some data => exact ih h.tail _
    · rfl

theorem proposalRoles_congr : proposalRoles w q' check = proposalRoles w q check :=
  foldl_ext _ _ _ fun roles g hg => by rw [h.roles hg]

theorem proposalDungeons_congr : proposalDungeons q' check = proposalDungeons q check := by
  cases check with
  | nil => rfl
  | cons guid check =>
    unfold proposalDungeons
    dsimp only
    rw [h.dungeons mem_cons_self]
    exact foldl_ext _ _ _ fun ds g hg => by rw [h.tail.dungeons hg]

theorem answerAll_congr : answerAll w q' check = answerAll w q check := by
  unfold answerAll answerEntries
  rw [countPlayers_congr h, proposalRoles_congr h, proposalDungeons_congr h]

theorem answer_congr : answer w q' check = answer w q check := by
  induction check with
  | nil => rfl
  | cons guid check ih =>
    unfold answer
    rw [ih h.tail, answerAll_congr h]

end

/-- **What a check stores**: answers of lists, with their keys. -/
structure Stores (w : World) (s s' : Search) : Prop where
  queueData : s'.queue.queueData = s.queue.queueData
  cached : ∀ key v, s'.queue.compatibles key = some v → s.queue.compatibles key = some v ∨
    ∃ l, key = concatenateGuids l ∧ (v = answer w s.queue l ∨
      s.queue.compatibles key = some .badStates ∧ v = .matched ∧ w.allQueued l = true)

theorem Stores.refl (w : World) (s : Search) : Stores w s s := ⟨rfl, fun _ _ => .inl⟩

/-- **`CheckCompatibility` answers from the data**, and stores what it answers. -/
theorem checkCompatibility_answers (w : World) (s : Search) (check : List ℕ) :
    (checkCompatibility w s check).2 = answer w s.queue check ∧
      (checkCompatibility w s check).1.queue.queueData = s.queue.queueData ∧
        ∀ key v, (checkCompatibility w s check).1.queue.compatibles key = some v →
          s.queue.compatibles key = some v ∨
            ∃ l, key = concatenateGuids l ∧ v = answer w s.queue l := by
  induction check with
  | nil => exact ⟨rfl, rfl, fun _ _ => .inl⟩
  | cons guid check ih =>
    obtain ⟨hanswer, hdata, hcached⟩ := ih
    unfold checkCompatibility
    by_cases hlong : check.length + 1 > maxGroupSize
    · rw [if_pos hlong]
      refine ⟨?_, rfl, fun _ _ => .inl⟩
      unfold answer
      rw [if_pos hlong]
    rw [if_neg hlong]
    by_cases hmany : check.length + 1 > 2
    · rw [if_pos hmany]
      dsimp only
      rw [hanswer]
      have hself : answer w s.queue (guid :: check) =
          if (answer w s.queue check).isIncompatible then answer w s.queue check
          else answerAll w s.queue (guid :: check) := by
        rw [answer, if_neg hlong, if_pos hmany]
      cases hchild : (answer w s.queue check).isIncompatible with
      | true =>
        rw [hchild, if_pos rfl] at hself
        refine ⟨hself.symm, hdata, fun key v hv => ?_⟩
        have hone := (answers_setCompatibles rfl rfl (guid :: check)
          (answer w s.queue check)).cached key v hv
        rcases hone with hold | ⟨hkey, rfl⟩
        · exact hcached key v hold
        · exact .inr ⟨guid :: check, hkey, hself.symm⟩
      | false =>
        rw [hchild, if_neg Bool.false_ne_true] at hself
        have hall := checkAll_answers w (checkCompatibility w s check).1 (guid :: check)
        have hsame : answerAll w (checkCompatibility w s check).1.queue (guid :: check) =
            answer w s.queue (guid :: check) := by
          rw [hself]
          exact answerAll_congr fun g _ => by rw [hdata]
        refine ⟨hall.answer_eq.trans hsame, hall.queueData.trans hdata, fun key v hv => ?_⟩
        rcases hall.cached key v hv with hold | ⟨hkey, hv⟩
        · exact hcached key v hold
        · exact .inr ⟨guid :: check, hkey, hv.trans hsame⟩
    rw [if_neg hmany]
    have hself : answer w s.queue (guid :: check) = answerAll w s.queue (guid :: check) := by
      rw [answer, if_neg hlong, if_neg hmany]
    have hall := checkAll_answers w s (guid :: check)
    refine ⟨hall.answer_eq.trans hself.symm, hall.queueData, fun key v hv => ?_⟩
    rcases hall.cached key v hv with hold | ⟨hkey, hv⟩
    · exact .inl hold
    · exact .inr ⟨guid :: check, hkey, hv.trans hself.symm⟩

theorem fromScratch_eq (w : World) (q : LFGQueue) (check : List ℕ) :
    fromScratch w q check = answer w q check := by
  unfold fromScratch
  rw [(checkCompatibility_answers w _ check).1]
  exact answer_congr fun g _ => rfl

/-! ### Other states of the players -/

/-- The same groups and ignores, with other states. -/
def withStates (w : World) (state : ℕ → LfgState) : World := { w with state := state }

theorem countPlayers_withStates (w : World) (q : LFGQueue) (state : ℕ → LfgState) (check : List ℕ)
    (t : Tally) : countPlayers (withStates w state) q check t = countPlayers w q check t := by
  induction check generalizing t with
  | nil => rfl
  | cons guid check ih =>
    unfold countPlayers
    split
    · cases q.queueData guid with
      | none => rfl
      | some data => exact ih _
    · rfl

theorem answerEntries_withStates (w : World) (q : LFGQueue) (state : ℕ → LfgState) (t : Tally)
    (check : List ℕ) : (answerEntries w q t check = offered w t.numPlayers check ∧
      answerEntries (withStates w state) q t check =
        offered (withStates w state) t.numPlayers check) ∨
    ((answerEntries w q t check).isIncompatible = true ∧
      answerEntries (withStates w state) q t check = answerEntries w q t check) := by
  have hroles : proposalRoles (withStates w state) q check = proposalRoles w q check := rfl
  unfold answerEntries
  rw [hroles]
  by_cases hignores : (t.numPlayers + 256 - (proposalRoles w q check).length % 256) % 256 ≠ 0
  · rw [if_pos hignores, if_pos hignores]
    exact .inr ⟨rfl, rfl⟩
  rw [if_neg hignores, if_neg hignores]
  by_cases hanswer : (!(checkGroupRoles (proposalRoles w q check)).1) = true
  · rw [if_pos hanswer, if_pos hanswer]
    exact .inr ⟨rfl, rfl⟩
  rw [if_neg hanswer, if_neg hanswer]
  by_cases hnone : proposalDungeons q check = []
  · rw [if_pos hnone, if_pos hnone]
    exact .inr ⟨rfl, rfl⟩
  rw [if_neg hnone, if_neg hnone]
  exact .inl ⟨rfl, rfl⟩

/-- Answers that differ by the states of the entries only. -/
def Alike (w w' : World) (check : List ℕ) (c c' : LfgCompatibility) : Prop :=
  c' = c ∧ c ≠ .badStates ∧ c ≠ .matched ∨
    c = (if w.allQueued check then .matched else .badStates) ∧
      c' = if w'.allQueued check then .matched else .badStates

theorem alike_offered (w w' : World) (numPlayers : ℕ) (check : List ℕ) :
    Alike w w' check (offered w numPlayers check) (offered w' numPlayers check) := by
  unfold offered
  by_cases hless : numPlayers ≠ maxGroupSize
  · rw [if_pos hless, if_pos hless]
    exact .inl ⟨rfl, by decide, by decide⟩
  rw [if_neg hless, if_neg hless]
  refine .inr ⟨?_, ?_⟩
  · cases w.allQueued check <;> rfl
  · cases w'.allQueued check <;> rfl

theorem alike_of_incompatible (w w' : World) (check : List ℕ) (h : c.isIncompatible = true) :
    Alike w w' check c c := by
  refine .inl ⟨rfl, ?_, ?_⟩
  all_goals
    rintro rfl
    cases h

theorem Alike.isIncompatible {w' : World} {c' : LfgCompatibility} (h : Alike w w' check c c') :
    c'.isIncompatible = c.isIncompatible := by
  rcases h with ⟨rfl, -, -⟩ | ⟨rfl, rfl⟩
  · rfl
  · cases w.allQueued check <;> cases w'.allQueued check <;> rfl

theorem answerAll_withStates (w : World) (q : LFGQueue) (state : ℕ → LfgState) (check : List ℕ) :
    Alike w (withStates w state) check (answerAll w q check)
      (answerAll (withStates w state) q check) := by
  unfold answerAll
  rw [countPlayers_withStates]
  cases countPlayers w q check ⟨0, 0, 0, []⟩ with
  | error guid => exact alike_of_incompatible _ _ _ rfl
  | ok t =>
    dsimp only
    split
    · exact .inl ⟨rfl, by decide, by decide⟩
    split
    · exact alike_of_incompatible _ _ _ rfl
    split
    · exact alike_of_incompatible _ _ _ rfl
    split
    · exact alike_offered _ _ _ _
    rcases answerEntries_withStates w q state t check with ⟨h, h'⟩ | ⟨hinc, h'⟩
    · rw [h, h']
      exact alike_offered _ _ _ _
    rw [h']
    exact alike_of_incompatible _ _ _ hinc

/-- **The states of the players** decide between `BAD_STATES` and `MATCH`, and nothing else. -/
theorem answer_withStates (w : World) (q : LFGQueue) (state : ℕ → LfgState) (check : List ℕ) :
    Alike w (withStates w state) check (answer w q check)
      (answer (withStates w state) q check) := by
  induction check with
  | nil => exact alike_of_incompatible _ _ _ rfl
  | cons guid check ih =>
    unfold answer
    split
    · exact alike_of_incompatible _ _ _ rfl
    split
    · rw [ih.isIncompatible]
      split
      · rename_i hinc
        rcases ih with ⟨heq, -, -⟩ | ⟨heq, -⟩
        · rw [heq]
          exact alike_of_incompatible _ _ _ hinc
        rw [heq] at hinc
        cases hall : w.allQueued check with
        | true | false =>
          rw [hall] at hinc
          cases hinc
      · exact answerAll_withStates w q state (guid :: check)
    · exact answerAll_withStates w q state (guid :: check)

theorem answer_of_allQueued {state : ℕ → LfgState} (h : answer w q check = .badStates)
    (hqueued : (withStates w state).allQueued check = true) :
    answer (withStates w state) q check = .matched := by
  rcases answer_withStates w q state check with ⟨-, hne, -⟩ | ⟨-, heq⟩
  · exact absurd h hne
  rw [heq, hqueued]
  rfl

theorem allQueued_of_badStates (h : answer w q check = .badStates) : w.allQueued check = false := by
  rcases answer_withStates w q w.state check with ⟨-, hne, -⟩ | ⟨heq, -⟩
  · exact absurd h hne
  cases hall : w.allQueued check with
  | false => rfl
  | true =>
    rw [hall, h] at heq
    cases heq

/-! ### The search -/

theorem Stores.trans {s'' : Search} (h : Stores w s s') (h' : Stores w s' s'') :
    Stores w s s'' := by
  have hanswer (l : List ℕ) : answer w s'.queue l = answer w s.queue l :=
    answer_congr fun g _ => by rw [h.queueData]
  refine ⟨h'.queueData.trans h.queueData, fun key v hv => ?_⟩
  rcases h'.cached key v hv with hold | ⟨l, hkey, rfl | ⟨hbad, rfl, hall⟩⟩
  · exact h.cached key v hold
  · exact .inr ⟨l, hkey, .inl (hanswer l)⟩
  rcases h.cached key _ hbad with hold | ⟨l', hkey', hanswered | ⟨-, heq, -⟩⟩
  · exact .inr ⟨l, hkey, .inr ⟨hold, rfl, hall⟩⟩
  · -- what this search has stored as `BAD_STATES` does not become a match in it
    have hnot := allQueued_of_badStates hanswered.symm
    rw [allQueued_congr (mem_iff_of_key (hkey.symm.trans hkey')), hnot] at hall
    cases hall
  · cases heq

theorem Stores.of_lists (hdata : s'.queue.queueData = s.queue.queueData)
    (hcached : s'.queue.compatibles = s.queue.compatibles) : Stores w s s' :=
  ⟨hdata, fun key v hv => .inl (by rw [hcached] at hv; exact hv)⟩

theorem getCompatibility_stores (w : World) (s : Search) (check : List ℕ) :
    Stores w s (getCompatibility w s check).1 := by
  obtain ⟨hanswer, hdata, hcached⟩ := checkCompatibility_answers w s check
  have hcheck : Stores w s (checkCompatibility w s check).1 :=
    ⟨hdata, fun key v hv => (hcached key v hv).imp_right fun ⟨l, hkey, hl⟩ => ⟨l, hkey, .inl hl⟩⟩
  unfold getCompatibility
  dsimp only
  by_cases hpending : s.queue.getCompatibles check = .pending
  · rw [if_pos hpending]
    split
    · rename_i hbad
      -- an answer just calculated is not `BAD_STATES` if all are queued
      rw [hanswer] at hbad
      exact absurd ((allQueued_of_badStates hbad.1).symm.trans hbad.2) Bool.false_ne_true
    · exact hcheck
  rw [if_neg hpending]
  split
  · rename_i hbad
    refine ⟨rfl, fun key v hv => ?_⟩
    rcases (answers_setCompatibles rfl rfl check .matched).cached key v hv with
      hold | ⟨hkey, rfl⟩
    · exact .inl hold
    refine .inr ⟨check, hkey, .inr ⟨?_, rfl, hbad.2⟩⟩
    rw [hkey]
    have hstored := hbad.1
    unfold LFGQueue.getCompatibles at hstored
    cases hlook : s.queue.compatibles (concatenateGuids check) with
    | none =>
      rw [hlook] at hstored
      cases hstored
    | some v =>
      rw [hlook] at hstored
      exact congrArg some hstored
  · exact Stores.refl w s

theorem findNewGroups_stores (w : World) (fuel : ℕ) (s : Search) (check all : List ℕ) :
    Stores w s (findNewGroups w fuel s check all).1 := by
  induction fuel generalizing s check all with
  | zero => exact Stores.refl w s
  | succ fuel ih =>
    have hget := getCompatibility_stores w s check
    unfold findNewGroups
    dsimp only
    split
    · exact hget
    · exact hget.trans (tryQueued_rel (Stores.refl w) Stores.trans ih _ _ _ _)

theorem findGroup_stores (w : World) (s : Search) (frontguid : ℕ) :
    Stores w s (findGroup w s frontguid) := by
  have htaken : Stores w s { s with queue := s.queue.removeFromNewQueue frontguid } :=
    Stores.of_lists rfl rfl
  unfold findGroup
  dsimp only
  split
  · exact htaken.trans (findNewGroups_stores w _ _ _ _)
  · exact (htaken.trans (findNewGroups_stores w _ _ _ _)).trans (Stores.of_lists rfl rfl)

theorem findGroupsFrom_stores (w : World) (left : ℕ) (s : Search) :
    Stores w s (findGroupsFrom w left s) := by
  induction left generalizing s with
  | zero => exact Stores.refl w s
  | succ left ih =>
    unfold findGroupsFrom
    split
    · exact Stores.refl w s
    · exact (findGroup_stores w s _).trans (ih _)

theorem findGroups_stores (w : World) (s : Search) : Stores w s (findGroups w s) :=
  findGroupsFrom_stores w _ s

end Search

/-! ### Every state of a queue -/

/-- A cached state: calculated in a call of `FindGroups` from the data of then, and last stored
with the states of that call or a later one. -/
def Calculated (calls : List QueueCall) (key : List Char) (c : LfgCompatibility) : Prop :=
  ∃ pre w post l state, calls = pre ++ .findGroups w :: post ∧
    (state = w.state ∨ ∃ w', .findGroups w' ∈ post ∧ state = w'.state) ∧
      key = concatenateGuids l ∧ Search.answer (Search.withStates w state) (queueAfter pre) l = c

theorem Calculated.snoc {calls : List QueueCall} (h : Calculated calls key c) (last : QueueCall) :
    Calculated (calls ++ [last]) key c := by
  obtain ⟨pre, w, post, l, state, rfl, hstate, hkey, hanswer⟩ := h
  refine ⟨pre, w, post ++ [last], l, state, ?_, ?_, hkey, hanswer⟩
  · rw [append_assoc, cons_append]
  · exact hstate.imp_right fun ⟨w', hmem, heq⟩ => ⟨w', mem_append_left _ hmem, heq⟩

/-- **One call.**  What it leaves in the cache was there before, or was calculated in it, or was
`BAD_STATES` and is a match now. -/
theorem calculated_call {calls : List QueueCall}
    (h : ∀ key c, (queueAfter calls).compatibles key = some c → Calculated calls key c)
    (last : QueueCall) (key : List Char) (c : LfgCompatibility)
    (hc : (call (queueAfter calls) last).compatibles key = some c) :
    Calculated (calls ++ [last]) key c := by
  have hremoved {guid : ℕ}
      (hc : ((queueAfter calls).removeFromQueue guid).compatibles key = some c) :
      (queueAfter calls).compatibles key = some c := by
    change (if decimal guid <:+: key then none else (queueAfter calls).compatibles key) =
      some c at hc
    split at hc
    · cases hc
    · exact hc
  have hadded (q : LFGQueue) (guid : ℕ) : (q.addToQueue guid).compatibles = q.compatibles := by
    unfold LFGQueue.addToQueue
    split <;> rfl
  cases last with
  | addToQueue guid =>
    change ((queueAfter calls).addToQueue guid).compatibles key = some c at hc
    rw [hadded] at hc
    exact (h key c hc).snoc _
  | addQueueData guid data =>
    change (LFGQueue.addToQueue _ guid).compatibles key = some c at hc
    rw [hadded] at hc
    exact (h key c hc).snoc _
  | removeFromQueue guid => exact (h key c (hremoved hc)).snoc _
  | removeQueueData guid => exact (h key c hc).snoc _
  | findGroups w =>
    have hstores := Search.findGroups_stores w ⟨queueAfter calls, []⟩
    rcases hstores.cached key c hc with hold | ⟨l, hkey, rfl | ⟨hbad, rfl, hall⟩⟩
    · exact (h key c hold).snoc _
    · exact ⟨calls, w, [], l, w.state, rfl, .inl rfl, hkey, rfl⟩
    obtain ⟨pre, w1, post, l', state, rfl, -, hkey', hanswer⟩ := h key _ hbad
    have hqueued : (Search.withStates w1 w.state).allQueued l' = true := by
      rw [allQueued_congr (mem_iff_of_key (hkey.symm.trans hkey'))] at hall
      exact hall
    refine ⟨pre, w1, post ++ [.findGroups w], l', w.state, ?_, .inr ⟨w, ?_, rfl⟩, hkey', ?_⟩
    · rw [append_assoc, cons_append]
    · exact mem_append_right _ (mem_singleton_self _)
    · exact Search.answer_of_allQueued (w := Search.withStates w1 state) hanswer hqueued

theorem calculated (calls : List QueueCall) (key : List Char) (c : LfgCompatibility)
    (hc : (queueAfter calls).compatibles key = some c) : Calculated calls key c := by
  induction calls using reverseRecOn generalizing key c with
  | nil => cases hc
  | append_singleton calls last ih =>
    unfold queueAfter at hc
    rw [foldl_append] at hc
    exact calculated_call ih last key c hc

theorem decimal_found (h : guid ∈ l) : decimal guid <:+: concatenateGuids l :=
  infix_joined '|' (mem_map.mpr ⟨guid, mem_guidSet.mpr h, rfl⟩)

/-- **The cache is sound.**  In every state of a queue, what is stored for a key is what
`CheckCompatibility` answered from scratch for a list with that key, with the data, groups and
ignores of when it was calculated and the states of when it was last stored, and so what it answers
now if the data of the entries are still those.  Taking an entry out takes out every key of a list it
is in, and leaves every key in which its number is not found. -/
theorem cached_as_calculated (calls : List QueueCall) :
    (∀ key c, (queueAfter calls).compatibles key = some c →
      ∃ pre w post l state, calls = pre ++ .findGroups w :: post ∧
        (state = w.state ∨ ∃ w', .findGroups w' ∈ post ∧ state = w'.state) ∧
          key = concatenateGuids l ∧
            fromScratch (Search.withStates w state) (queueAfter pre) l = c ∧
            ((∀ g ∈ l, (queueAfter calls).queueData g = (queueAfter pre).queueData g) →
              fromScratch (Search.withStates w state) (queueAfter calls) l = c)) ∧
      ∀ guid q, (q = (queueAfter calls).removeFromQueue guid ∨
          q = (queueAfter calls).removeFromCompatibles guid) →
        (∀ l, guid ∈ l → q.compatibles (concatenateGuids l) = none) ∧
          ∀ key, ¬decimal guid <:+: key →
            q.compatibles key = (queueAfter calls).compatibles key := by
  constructor
  · intro key c hc
    obtain ⟨pre, w, post, l, state, hcalls, hstate, hkey, hanswer⟩ := calculated calls key c hc
    refine ⟨pre, w, post, l, state, hcalls, hstate, hkey, ?_, fun hdata => ?_⟩
    · rw [Search.fromScratch_eq, hanswer]
    rw [Search.fromScratch_eq, ← hanswer]
    exact Search.answer_congr hdata
  intro guid q hq
  have hcompatibles : q.compatibles = fun key =>
      if decimal guid <:+: key then none else (queueAfter calls).compatibles key := by
    rcases hq with rfl | rfl <;> rfl
  rw [hcompatibles]
  constructor
  · exact fun l hl => if_pos (decimal_found hl)
  · exact fun key hkey => if_neg hkey

/-- Two players join, and later the five players of a group. -/
def joining : List QueueCall :=
  [.addQueueData 12 ⟨[7], [(12, 4)]⟩, .addQueueData 112 ⟨[7], [(112, 4)]⟩,
    .findGroups { peaceful with state := fun _ => .dungeon },
    .addQueueData 9 ⟨[7], [(1, 2), (2, 4), (3, 8), (4, 8), (5, 8)]⟩,
    .findGroups { peaceful with state := fun _ => .dungeon }]

/-- The key of player 112 goes with player 12, and the group's `BAD_STATES` stays when its
players are queued. -/
theorem other_key_removed :
    ((queueAfter joining).compatibles (concatenateGuids [112])).isSome = true ∧
      ((queueAfter joining).removeFromQueue 12).compatibles (concatenateGuids [112]) = none ∧
        (queueAfter joining).compatibles (concatenateGuids [9]) = some .badStates ∧
          fromScratch { peaceful with state := fun _ => .queued } (queueAfter joining) [9] =
            .matched := by
  decide +kernel

end ZerosCore.Lfg
