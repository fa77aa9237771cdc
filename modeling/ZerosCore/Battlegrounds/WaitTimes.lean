/-
# The wait times of a battleground queue

`BattlegroundQueue::PlayerInvitedToBGUpdateAverageWaitTime` and `GetAverageQueueWaitTime` of
`src/server/game/Battlegrounds/BattlegroundQueue.cpp`: a ring of the last ten wait times for each
team and bracket, and their sum.

The sum is kept modulo 2 ^ 32, so nothing is lost in a run, but ten wait times of five days each
are too much for it (`fiveDays_overflow`).
-/

import Mathlib.Algebra.Order.BigOperators.Group.List
import Mathlib.Algebra.Order.Group.Nat
import Mathlib.Data.List.GetD
import Mathlib.Data.UInt

namespace ZerosCore.Battlegrounds.WaitTimes

open List

/-- `COUNT_OF_PLAYERS_TO_AVERAGE_WAIT_TIME`. -/
def countOfPlayers : ℕ := 10

def horde : UInt32 := 67

/-- What the two functions read of a `GroupQueueInfo`. -/
structure GroupQueueInfo where
  joinTime : UInt32
  arenaType : UInt8
  team : UInt32
  isRated : Bool

/-- `team_index`: the horde, or the rated arenas. -/
def GroupQueueInfo.teamIndex (ginfo : GroupQueueInfo) : Bool :=
  if ginfo.arenaType = 0 then ginfo.team = horde else ginfo.isRated

def getMSTimeDiff (oldMSTime newMSTime : UInt32) : UInt32 :=
  if newMSTime < oldMSTime then (0xFFFFFFFF - oldMSTime) + newMSTime else newMSTime - oldMSTime

/-- What is kept for a team and a bracket. -/
structure Window where
  waitTimes : List UInt32 := replicate countOfPlayers 0
  waitTimeLastPlayer : ℕ := 0
  sumOfWaitTimes : UInt32 := 0

/-- The oldest wait time gives way to a new one. -/
def Window.add (w : Window) (timeInQueue : UInt32) : Window where
  waitTimes := w.waitTimes.set w.waitTimeLastPlayer timeInQueue
  waitTimeLastPlayer := (w.waitTimeLastPlayer + 1) % countOfPlayers
  sumOfWaitTimes := w.sumOfWaitTimes - w.waitTimes.getD w.waitTimeLastPlayer 0 + timeInQueue

/-- By team and bracket. -/
abbrev BattlegroundQueue := Bool × ℕ → Window

/-- A group that is invited: the time, the group and its bracket. -/
abbrev Invitation := UInt32 × GroupQueueInfo × ℕ

def Invitation.key (x : Invitation) : Bool × ℕ := (x.2.1.teamIndex, x.2.2)

def Invitation.timeInQueue (x : Invitation) : UInt32 := getMSTimeDiff x.2.1.joinTime x.1

/-- `PlayerInvitedToBGUpdateAverageWaitTime`. -/
def playerInvited (q : BattlegroundQueue) (x : Invitation) : BattlegroundQueue :=
  fun key => if key = x.key then (q key).add x.timeInQueue else q key

def Window.getAverageQueueWaitTime (w : Window) : UInt32 :=
  if w.waitTimes.getD (countOfPlayers - 1) 0 ≠ 0 then w.sumOfWaitTimes / 10 else 0

/-! ### What the ring should hold -/

/-- The wait times of a team and bracket, in the order of the invitations. -/
def waits (key : Bool × ℕ) (xs : List Invitation) : List UInt32 :=
  (xs.filter fun x => x.key = key).map Invitation.timeInQueue

/-- The last ten, the oldest first; as long as there are fewer, zeros come before them. -/
def lastOf (l : List UInt32) : List UInt32 := (replicate countOfPlayers 0 ++ l).drop l.length

def total (l : List UInt32) : ℕ := ((lastOf l).map UInt32.toNat).sum

/-- The sum is that of the last ten, which the ring holds from its index on, and with ten the
average is between them. -/
structure Window.Right (w : Window) (l : List UInt32) : Prop where
  sum : w.sumOfWaitTimes.toNat = total l
  oldest : ∀ j < countOfPlayers,
    w.waitTimes[(w.waitTimeLastPlayer + j) % countOfPlayers]? = (lastOf l)[j]?
  average : countOfPlayers ≤ l.length → (∀ m, (∀ t ∈ lastOf l, m ≤ t) →
    m ≤ w.getAverageQueueWaitTime) ∧ ∀ m, (∀ t ∈ lastOf l, t ≤ m) → w.getAverageQueueWaitTime ≤ m

/-! ### The ring -/

variable {w : Window} {l : List UInt32} {t : UInt32}

theorem length_lastOf (l : List UInt32) : (lastOf l).length = countOfPlayers := by
  simp [lastOf]

/-- The oldest goes, and a new one comes to the end. -/
theorem lastOf_append (l : List UInt32) (t : UInt32) :
    lastOf (l ++ [t]) = (lastOf l).tail ++ [t] := by
  have hlength : l.length + 1 ≤ (replicate countOfPlayers (0 : UInt32) ++ l).length := by
    rw [length_append, length_replicate, countOfPlayers]
    omega
  unfold lastOf
  rw [length_append, length_singleton, ← append_assoc, drop_append_of_le_length hlength, tail_drop]

/-- The ring holds the last ten from its index on, and the sum is theirs modulo 2 ^ 32. -/
structure Kept (w : Window) (l : List UInt32) : Prop where
  length : w.waitTimes.length = countOfPlayers
  index : w.waitTimeLastPlayer < countOfPlayers
  oldest : ∀ j < countOfPlayers,
    w.waitTimes[(w.waitTimeLastPlayer + j) % countOfPlayers]? = (lastOf l)[j]?
  sum : w.sumOfWaitTimes = (lastOf l).sum

/-- **The step lemma.** -/
theorem Kept.add (h : Kept w l) (t : UInt32) : Kept (w.add t) (l ++ [t]) := by
  have hindex := h.index
  have hlast := length_lastOf l
  unfold countOfPlayers at hindex hlast
  obtain ⟨a, rest, hsplit⟩ := exists_cons_of_length_pos (show 0 < (lastOf l).length by omega)
  have hrest : rest.length = 9 := by
    rw [hsplit, length_cons] at hlast
    omega
  have hfirst := h.oldest 0 (by decide)
  rw [Nat.add_zero, Nat.mod_eq_of_lt h.index, hsplit, getElem?_cons_zero] at hfirst
  have happend : lastOf (l ++ [t]) = rest ++ [t] := by rw [lastOf_append, hsplit, tail_cons]
  refine ⟨by rw [Window.add, length_set, h.length], Nat.mod_lt _ (by decide), fun j hj => ?_, ?_⟩
  · rw [happend]
    unfold countOfPlayers at hj
    simp only [Window.add, countOfPlayers]
    by_cases hend : j = 9
    · rw [show ((w.waitTimeLastPlayer + 1) % 10 + j) % 10 = w.waitTimeLastPlayer by omega,
        getElem?_set_self (h.length ▸ h.index), hend, ← hrest, getElem?_concat_length]
    have hold := h.oldest (j + 1) (by unfold countOfPlayers; omega)
    rw [hsplit, getElem?_cons_succ, countOfPlayers] at hold
    rw [getElem?_set_ne (by omega), getElem?_append_left (by omega), ← hold,
      show ((w.waitTimeLastPlayer + 1) % 10 + j) % 10 = (w.waitTimeLastPlayer + (j + 1)) % 10 by
        omega]
  rw [happend, sum_append, sum_singleton, Window.add, h.sum, hsplit, sum_cons, getD_eq_getElem?_getD,
    hfirst, Option.getD_some]
  rw [UInt32.add_comm a, UInt32.add_sub_cancel]

/-- **The run lemma.** -/
theorem kept_run (key : Bool × ℕ) (xs : List Invitation) :
    Kept (xs.foldl playerInvited (fun _ => {}) key) (waits key xs) := by
  induction xs using reverseRecOn with
  | nil =>
    refine ⟨rfl, Nat.zero_lt_succ 9, fun j hj => ?_, rfl⟩
    simp [waits, lastOf, Nat.mod_eq_of_lt hj]
  | append_singleton xs x ih =>
    rw [foldl_append, foldl_cons, foldl_nil, playerInvited]
    unfold waits at ih ⊢
    rw [filter_append, map_append]
    split_ifs with hkey
    · have hnew : ([x].filter fun x => x.key = key).map Invitation.timeInQueue =
          [x.timeInQueue] := by simp [hkey]
      rw [hnew]
      exact ih.add _
    have hnone : [x].filter (·.key = key) = [] := by simp [Ne.symm hkey]
    rw [hnone, map_nil, append_nil]
    exact ih

theorem toNat_sum (l : List UInt32) : l.sum.toNat = (l.map UInt32.toNat).sum % 2 ^ 32 := by
  induction l with
  | nil => rfl
  | cons a l ih =>
    rw [sum_cons, UInt32.toNat_add, ih, map_cons, sum_cons, Nat.add_mod_mod]

/-- An average of ten numbers is between bounds of theirs. -/
theorem average_bounds {l : List ℕ} (hlength : l.length = 10) (m : ℕ) :
    ((∀ t ∈ l, m ≤ t) → m ≤ l.sum / 10) ∧ ((∀ t ∈ l, t ≤ m) → l.sum / 10 ≤ m) := by
  constructor
  · intro h
    have hsum := card_nsmul_le_sum l m h
    rw [hlength, Nat.nsmul_eq_mul] at hsum
    omega
  intro h
  have hsum := sum_le_card_nsmul l m h
  rw [hlength, Nat.nsmul_eq_mul] at hsum
  omega

/-- **The window of a team and bracket is right exactly if its ten wait times are less than
2 ^ 32 milliseconds together**, after any run of invitations. -/
theorem window_right_iff (key : Bool × ℕ) (xs : List Invitation) :
    (xs.foldl playerInvited (fun _ => {}) key).Right (waits key xs) ↔
      total (waits key xs) < 2 ^ 32 := by
  have h := kept_run key xs
  generalize xs.foldl playerInvited (fun _ => {}) key = w at h
  generalize waits key xs = l at h
  refine ⟨fun hright => hright.sum ▸ w.sumOfWaitTimes.toNat_lt, fun hsmall => ?_⟩
  have hsum : w.sumOfWaitTimes.toNat = total l := by
    rw [h.sum, toNat_sum]
    exact Nat.mod_eq_of_lt hsmall
  refine ⟨hsum, h.oldest, fun _ => ?_⟩
  unfold Window.getAverageQueueWaitTime
  split_ifs with hlast
  · have hlength : ((lastOf l).map UInt32.toNat).length = 10 := by
      rw [length_map, length_lastOf, countOfPlayers]
    have hdiv : (w.sumOfWaitTimes / 10).toNat = total l / 10 := by
      rw [UInt32.toNat_div, hsum]
      rfl
    refine ⟨fun m hm => ?_, fun m hm => ?_⟩
    · rw [UInt32.le_iff_toNat_le, hdiv]
      exact (average_bounds hlength _).1 (forall_mem_map.mpr fun t ht => hm t ht)
    rw [UInt32.le_iff_toNat_le, hdiv]
    exact (average_bounds hlength _).2 (forall_mem_map.mpr fun t ht => hm t ht)
  -- the zero in the last place is one of the ten
  have hindex := h.index
  have hlength := h.length
  unfold countOfPlayers at hindex hlength hlast
  have hplace := h.oldest ((9 + (10 - w.waitTimeLastPlayer)) % 10) (Nat.mod_lt _ (by decide))
  rw [countOfPlayers, show (w.waitTimeLastPlayer + (9 + (10 - w.waitTimeLastPlayer)) % 10) % 10 = 9
    by omega, getElem?_eq_getElem (by omega)] at hplace
  rw [not_not, getD_eq_getElem _ _ (by omega)] at hlast
  have hzero : (0 : UInt32) ∈ lastOf l := mem_of_getElem? (hplace.symm.trans (by rw [hlast]))
  exact ⟨fun m hm => hm 0 hzero, fun m _ => UInt32.zero_le⟩

/-- Ten groups that have waited for five days. -/
def fiveDays : List Invitation :=
  replicate 10 (432000000, ⟨0, 0, 0, false⟩, 0)

/-- **The sum overflows**, and the average is of less than an hour and a half. -/
theorem fiveDays_overflow :
    ¬(fiveDays.foldl playerInvited (fun _ => {}) (false, 0)).Right (waits (false, 0) fiveDays) := by
  intro h
  exact absurd h.sum (by decide)

end ZerosCore.Battlegrounds.WaitTimes
