/-
# Numbers and scheduled updates of battlegrounds

`src/server/game/Battlegrounds/BattlegroundMgr.cpp`.  `CreateClientVisibleInstanceId` gives a
battleground, here of one type and bracket and no arena, the number that clients see, and `Update`
frees it.  The loop that looks for a gap never advances its iterator.

`ScheduleQueueUpdate` packs the arguments of an update into a number, and `Update` reads them
back, with a loop whose index has eight bits.
-/

import ZerosCore.Lib.Run
import ZerosCore.Packets.PackedTime
import Mathlib.Data.Finset.Max

namespace ZerosCore.Battlegrounds.BattlegroundMgr

open Lib List

/-! ### The numbers that clients see -/

/-- The loop, over a set that begins with `first`. -/
def gapLoop (first lastId : ℕ) : ℕ :=
  if lastId + 1 ≠ first then lastId + 1 else gapLoop first first
termination_by first - lastId
decreasing_by omega

/-- `m_ClientBattlegroundIds`, and the numbers of the battlegrounds that run. -/
structure State where
  clientIds : Finset ℕ := ∅
  running : List ℕ := []

namespace State

variable {s : State}

def createClientVisibleInstanceId (s : State) : ℕ :=
  match s.clientIds.min with
  | ⊤ => 1
  | (first : ℕ) => gapLoop first 0 + 1

inductive Event where
  | create
  /-- A battleground with this number ends. -/
  | remove (id : ℕ)

def step (s : State) : Event → State
  | .create =>
    let id := s.createClientVisibleInstanceId
    ⟨insert id s.clientIds, s.running ++ [id]⟩
  | .remove id => if id ∈ s.running then ⟨s.clientIds.erase id, s.running.erase id⟩ else s

/-- The numbers are different, and those that are listed. -/
def Right (s : State) : Prop := s.running.Nodup ∧ ∀ id, id ∈ s.clientIds ↔ id ∈ s.running

/-- Nothing runs, or 1 is given and 3 is free, or 1 and 2 are free. -/
def Room (s : State) : Event → Prop
  | .create => s.clientIds = ∅ ∨ (if 1 ∈ s.clientIds then 3 else 2) ∉ s.clientIds
  | .remove _ => True

/-- The numbers that are ever given. -/
def Few (s : State) : Prop := s.clientIds ⊆ {1, 2, 3} ∧ s.running ⊆ [1, 2, 3]

theorem create_eq (h : s.Few) : s.createClientVisibleInstanceId =
    if s.clientIds = ∅ then 1 else if 1 ∈ s.clientIds then 3 else 2 := by
  unfold createClientVisibleInstanceId
  split
  · next hmin => rw [if_pos (Finset.min_eq_top.mp hmin)]
  next first hmin =>
  have hmem := Finset.mem_of_min hmin
  rw [if_neg (Finset.ne_empty_of_mem hmem), gapLoop]
  by_cases hone : 1 ∈ s.clientIds
  · have hle := Finset.min_le_of_eq hone hmin
    have hfew := h.1 hmem
    obtain rfl : first = 1 := by
      simp only [Finset.mem_insert, Finset.mem_singleton] at hfew
      omega
    -- the second round still compares with the first number
    rw [if_neg (by decide), gapLoop, if_pos (by decide), if_pos hone]
  · have hne : 0 + 1 ≠ first := by
      rintro rfl
      exact hone hmem
    rw [if_pos hne, if_neg hone]

/-- No event takes more than the three ids. -/
theorem Few.step (h : s.Few) (e : Event) : (s.step e).Few := by
  cases e with
  | create =>
    have hid : s.createClientVisibleInstanceId ∈ [1, 2, 3] := by
      rw [create_eq h]
      split_ifs <;> simp
    exact ⟨Finset.insert_subset (by simpa using hid) h.1,
      append_subset.mpr ⟨h.2, by simpa using hid⟩⟩
  | remove id =>
    unfold State.step
    dsimp only
    split_ifs
    · exact ⟨(Finset.erase_subset ..).trans h.1, Subset.trans erase_subset h.2⟩
    · exact h

theorem right_step (h : s.Few ∧ s.Right) (e : Event) : (s.step e).Right ↔ s.Room e := by
  obtain ⟨hfew, hnodup, hids⟩ := h
  cases e with
  | remove id =>
    refine iff_of_true ?_ trivial
    unfold State.step
    dsimp only
    split_ifs
    · refine ⟨hnodup.erase id, fun id' => ?_⟩
      rw [Finset.mem_erase, hnodup.mem_erase_iff, hids]
    · exact ⟨hnodup, hids⟩
  | create =>
    have hnew (id : ℕ) : ((s.running ++ [id]).Nodup ∧
        ∀ id', id' ∈ insert id s.clientIds ↔ id' ∈ s.running ++ [id]) ↔ id ∉ s.clientIds := by
      simp [nodup_append, hnodup, hids, or_comm, imp_not_comm]
    unfold Right State.step Room
    dsimp only
    rw [hnew, create_eq hfew]
    by_cases hempty : s.clientIds = ∅
    · simp [hempty]
    · simp only [hempty, if_false, false_or]

/-- **Which runs keep the numbers right.**  They stay different, and those that are listed, just
when every creation finds room; and no number is ever above 3. -/
theorem numbers_right_iff (es : List Event) :
    (Along step (fun s e => (s.step e).Right) {} es ↔ Along step Room {} es) ∧
      (es.foldl step {}).running ⊆ [1, 2, 3] := by
  have hfew : Few {} := ⟨Finset.empty_subset _, nil_subset _⟩
  constructor
  · exact Along.iff_of_invariant (fun s e h => right_step h e) (fun s e h hr => ⟨h.1.step e, hr⟩)
      ⟨hfew, nodup_nil, by simp⟩
  · exact (Along.invariant_foldl (G := fun _ _ => True) (fun s e h _ => h.step e) hfew along_true).2

end State

/-! ### Scheduled updates -/

/-- The arguments of `ScheduleQueueUpdate`.  The types of arena are 0, 2, 3 and 5; one of 128 or more
would be negative when it is shifted. -/
structure QueueUpdate where
  arenaMMRating : Fin 4294967296
  arenaType : Fin 128
  bgQueueTypeId : Fin 256
  bgTypeId : Fin 256
  bracketId : Fin 256
deriving DecidableEq

namespace QueueUpdate

def scheduleId (u : QueueUpdate) : ℕ :=
  u.arenaMMRating.val <<< 32 ||| u.arenaType.val <<< 24 ||| u.bgQueueTypeId.val <<< 16 |||
    u.bgTypeId.val <<< 8 ||| u.bracketId.val

/-- What `BattlegroundQueueUpdate` should get. -/
def arguments (u : QueueUpdate) : ℕ × ℕ × ℕ × ℕ × ℕ :=
  (u.arenaMMRating, u.arenaType, u.bgQueueTypeId, u.bgTypeId, u.bracketId)

end QueueUpdate

def scheduleQueueUpdate (scheduler : List ℕ) (u : QueueUpdate) : List ℕ :=
  if u.scheduleId ∈ scheduler then scheduler else scheduler ++ [u.scheduleId]

/-- What is read from a number. -/
def argumentsOf (id : ℕ) : ℕ × ℕ × ℕ × ℕ × ℕ :=
  (id >>> 32, id >>> 24 &&& 255, id >>> 16 &&& 255, id >>> 8 &&& 255, id &&& 255)

/-- The loop of `Update`: the calls of `BattlegroundQueueUpdate`. -/
def updateQueues (scheduled : List ℕ) : ℕ → UInt8 → Option (List (ℕ × ℕ × ℕ × ℕ × ℕ))
  | 0, _ => none
  | fuel + 1, i => match scheduled[i.toNat]? with
    | none => some []
    | some id => (updateQueues scheduled fuel (i + 1)).map (argumentsOf id :: ·)

variable {scheduled : List ℕ}

/-- **What is scheduled can be read back.** -/
theorem argumentsOf_scheduleId (u : QueueUpdate) : argumentsOf u.scheduleId = u.arguments := by
  obtain ⟨⟨r, hr⟩, ⟨a, ha⟩, ⟨q, hq⟩, ⟨t, ht⟩, ⟨b, hb⟩⟩ := u
  have hid : QueueUpdate.scheduleId ⟨⟨r, hr⟩, ⟨a, ha⟩, ⟨q, hq⟩, ⟨t, ht⟩, ⟨b, hb⟩⟩ =
      (((r * 256 + a) * 256 + q) * 256 + t) * 256 + b := by
    have hor (x i : ℕ) {y : ℕ} (hy : y < 256) : x <<< (i + 8) ||| y <<< i = (x * 256 + y) <<< i :=
      Packets.PackedTime.or_shift x i 8 hy
    show r <<< 32 ||| a <<< 24 ||| q <<< 16 ||| t <<< 8 ||| b = _
    rw [hor r 24 (by omega), hor _ 16 hq, hor _ 8 ht]
    exact hor _ 0 hb
  have hmod (x : ℕ) : x &&& 255 = x % 256 := Nat.and_two_pow_sub_one_eq_mod x 8
  unfold argumentsOf QueueUpdate.arguments
  simp only [hid, hmod, Nat.shiftRight_eq_div_pow, Prod.mk.injEq]
  omega

theorem scheduleId_injective : Function.Injective QueueUpdate.scheduleId := by
  intro u v h
  have hargs := congrArg argumentsOf h
  simp only [argumentsOf_scheduleId, QueueUpdate.arguments, Prod.mk.injEq, Fin.val_inj] at hargs
  obtain ⟨hr, ha, hq, ht, hb⟩ := hargs
  cases u
  congr

/-- **What is scheduled**: each update once. -/
theorem perm_scheduled (us : List QueueUpdate) :
    us.foldl scheduleQueueUpdate [] ~ us.dedup.map QueueUpdate.scheduleId := by
  suffices h : ∀ scheduled : List ℕ, scheduled.Nodup →
      (us.foldl scheduleQueueUpdate scheduled).Nodup ∧
        ∀ id, id ∈ us.foldl scheduleQueueUpdate scheduled ↔
          id ∈ scheduled ∨ id ∈ us.map QueueUpdate.scheduleId by
    obtain ⟨hnodup, hmem⟩ := h [] nodup_nil
    refine (perm_ext_iff_of_nodup hnodup (us.nodup_dedup.map scheduleId_injective)).mpr fun id => ?_
    simp [hmem]
  induction us with
  | nil => exact fun scheduled h => ⟨h, by simp⟩
  | cons u us ih =>
    intro scheduled h
    rw [foldl_cons]
    unfold scheduleQueueUpdate
    split_ifs with hin
    · obtain ⟨hnodup, hmem⟩ := ih scheduled h
      refine ⟨hnodup, fun id => (hmem id).trans ?_⟩
      rw [map_cons, mem_cons, ← or_assoc, or_iff_left_of_imp fun h : id = _ => h ▸ hin]
    · obtain ⟨hnodup, hmem⟩ := ih _ (concat_eq_append ▸ h.concat hin)
      refine ⟨hnodup, fun id => (hmem id).trans ?_⟩
      rw [map_cons, mem_cons, mem_append, mem_singleton, or_assoc]

theorem updateQueues_eq (h : scheduled.length < 256) (fuel : ℕ) (i : UInt8)
    (hi : i.toNat ≤ scheduled.length) : updateQueues scheduled fuel i =
      if scheduled.length - i.toNat < fuel then some ((scheduled.drop i.toNat).map argumentsOf)
      else none := by
  induction fuel generalizing i with
  | zero => rfl
  | succ fuel ih =>
    unfold updateQueues
    rcases hi.eq_or_lt with heq | hlt
    · rw [heq, getElem?_eq_none le_rfl, drop_length, if_pos (by omega)]
      rfl
    have hnext : (i + 1).toNat = i.toNat + 1 := by
      rw [UInt8.toNat_add, UInt8.toNat_one, Nat.mod_eq_of_lt (by omega)]
    rw [getElem?_eq_getElem hlt, drop_eq_getElem_cons hlt]
    dsimp only
    rw [ih (i + 1) (by omega), hnext]
    split_ifs <;> first | rfl | omega

theorem updateQueues_of_le (h : 256 ≤ scheduled.length) (fuel : ℕ) (i : UInt8) :
    updateQueues scheduled fuel i = none := by
  induction fuel generalizing i with
  | zero => rfl
  | succ fuel ih =>
    unfold updateQueues
    rw [getElem?_eq_getElem (lt_of_lt_of_le i.toNat_lt h)]
    dsimp only
    rw [ih]
    rfl

end ZerosCore.Battlegrounds.BattlegroundMgr
