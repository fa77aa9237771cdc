/-
# The reset schedule of instances

`src/server/game/Instances/InstanceSaveMgr.h` (`InstResetEvent`) and
`src/server/game/Instances/InstanceSaveMgr.cpp` (`LoadResetTimes`, `ScheduleReset`,
`Update`, `_ResetOrWarnAll`).

Events wait in a multimap by time: events of type `0` reset one instance, the types `1` to
`4` are the warnings and the reset of a map and difficulty.  An event keeps its instance id
in 16 bits and two events are equal when these are, so instances from `65536` on are taken
for others, and those that are multiples of `65536` for the global events
(`schedule_confuses_ids`).  `schedule_along` says what holds where ids fit.

One round of the loop of `Update` is a step of its own (`Op.iterate`); `owner`, `due`,
`done` and `handled` are kept beside the state to say what is proved.
-/

import Mathlib.Data.List.Count
import Mathlib.Data.List.Chain
import Mathlib.Algebra.BigOperators.Group.List.Basic
import Mathlib.Tactic.Linarith
import ZerosCore.Lib.Multimap
import ZerosCore.Lib.Run

namespace ZerosCore.InstanceSaveManager

open Lib List Multimap Function

/-- `MAKE_PAIR32(mapid, difficulty)`. -/
structure Key where
  map : UInt16
  difficulty : UInt8
  deriving DecidableEq

structure InstResetEvent where
  type : ℕ
  key : Key
  instanceId : ℕ

/-- The constructor: the instance id is a `uint16`. -/
def InstResetEvent.make (type : ℕ) (key : Key) (id : ℕ) : InstResetEvent :=
  { type, key, instanceId := id % 2 ^ 16 }

/-- `operator ==`. -/
def InstResetEvent.same (e e' : InstResetEvent) : Bool := e'.instanceId = e.instanceId

/-- An element of `m_resetTimeQueue`, with the id of the instance it was made for. -/
structure Entry where
  time : ℤ
  event : InstResetEvent
  owner : ℕ

/-- `MINUTE` and `DAY`. -/
def minute : ℤ := 60
def day : ℤ := 86400

/-- `ResetTimeDelay[type - 1]`. -/
def resetTimeDelay (type : ℕ) : ℤ := [3600, 900, 300, 60].getD (type - 1) 0

/-- What the server reads from its files. -/
structure Config where
  instanceable : UInt16 → Bool
  /-- `sMapDifficultyMap`: `resetTime * rate` of each map and difficulty that has a reset
  time, a `uint32`. -/
  periods : List (Key × ℕ)
  distinct : (periods.map Prod.fst).Nodup
  /-- `CONFIG_INSTANCE_RESET_TIME_HOUR * HOUR`. -/
  diff : ℕ

/-- The reset period of a map and difficulty: at least one day. -/
def Config.period (cfg : Config) (key : Key) : Option ℤ :=
  (cfg.periods.find? fun x => x.1 = key).map fun x => max (x.2 : ℤ) day

/-- A row of the table `instance` that has a reset time. -/
structure Row where
  id : ℕ
  key : Key
  resetTime : ℤ

/-- `InstanceSaveManager`, its schedule. -/
structure Manager where
  /-- `m_resetTimeQueue`. -/
  queue : List Entry := []
  /-- `m_resetTimeByMapDifficulty`, `0` for none. -/
  resetTime : Key → ℤ := fun _ => 0
  /-- The `now` of the `Update` that is running. -/
  now : Option ℤ := none
  /-- The individual resets that were due when the last `Update` began. -/
  due : List (UInt16 × ℕ) := []
  /-- The individual resets the last `Update` has made. -/
  done : List (UInt16 × ℕ) := []
  /-- The global events handled so far, the latest first. -/
  handled : List (Key × ℕ) := []

namespace Manager

variable (cfg : Config) (m : Manager)

/-- `ScheduleReset(true, …)`. -/
def insert (x : Entry) : Manager := { m with queue := Multimap.insert Entry.time x m.queue }

/-- `ScheduleReset(false, …)`: an equal event at the time, or else anywhere, is erased. -/
def cancel (time : ℤ) (event : InstResetEvent) : Manager :=
  if m.queue.any fun x => x.time = time ∧ x.event.same event then
    { m with queue := m.queue.eraseP fun x => x.time = time ∧ x.event.same event }
  else { m with queue := m.queue.eraseP fun x => x.event.same event }

def setResetTimeFor (key : Key) (t : ℤ) : Manager :=
  { m with resetTime := Function.update m.resetTime key t }

/-! ### Loading -/

/-- The reset time of a map and difficulty that is loaded. -/
def startTime (now period : ℤ) (diff : ℕ) (t : ℤ) : ℤ :=
  let today := now / day * day
  let t := if t = 0 then today + period + diff else t
  if t < now then t / day * day + ((today - t / day * day) / period + 1) * period + diff else t

/-- The first type that is not past. -/
def startType (now t : ℤ) : ℕ :=
  if t - resetTimeDelay 1 > now then 1
  else if t - resetTimeDelay 2 > now then 2
  else if t - resetTimeDelay 3 > now then 3
  else 4

/-- One map and difficulty of `sMapDifficultyMap`, with the rows that have this pair. -/
def loadKey (now : ℤ) (rows : List Row) (m : Manager) (key : Key) : Manager :=
  match cfg.period key with
  | none => m
  | some period =>
    let t := startTime now period cfg.diff (m.resetTime key)
    let type := startType now t
    let m := m.setResetTimeFor key t
    let m := m.insert ⟨t - resetTimeDelay type, .make type key 0, 0⟩
    (rows.filter fun r => r.key = key).foldl
      (fun m r => m.insert ⟨t - resetTimeDelay type, .make type key r.id, r.id⟩) m

/-- `LoadResetTimes`, for the rows of `instance` that have a reset time and the rows of
`instance_reset` whose map and difficulty exist. -/
def loadResetTimes (now : ℤ) (rows : List Row) (resets : List (Key × ℤ)) : Manager :=
  let m := (rows.filter fun r => r.resetTime > now).foldl
    (fun m r => m.insert ⟨r.resetTime, .make 0 r.key r.id, r.id⟩) ({} : Manager)
  let m := resets.foldl (fun m r => m.setResetTimeFor r.1 (r.2 / day * day + cfg.diff)) m
  (cfg.periods.map Prod.fst).foldl (loadKey cfg now rows) m

/-! ### Updating -/

/-- `((resetTime + MINUTE) / DAY * DAY) + period + diff`, before it is cut to 32 bits. -/
def nextReset (period : ℤ) (diff : ℕ) (resetTime : ℤ) : ℤ :=
  (resetTime + minute) / day * day + period + diff

def resetOrWarnAll (key : Key) (warn : Bool) (resetTime : ℤ) : Manager :=
  if !cfg.instanceable key.map then m
  else if warn then m
  else match cfg.period key with
    | none => m
    | some period =>
      let next := nextReset period cfg.diff resetTime % 2 ^ 32
      (m.setResetTimeFor key next).insert ⟨(next - 3600) % 2 ^ 32, .make 1 key 0, 0⟩

/-- `m_resetTimeQueue.erase(m_resetTimeQueue.begin())`. -/
def eraseBegin : Manager := { m with queue := m.queue.tail }

/-- The round of `Update` for the front `x` of the queue. -/
def handle (x : Entry) : Manager :=
  if x.event.type = 0 then
    -- `_ResetInstance` does nothing for a map without instances
    if cfg.instanceable x.event.key.map then
      { m with done := m.done ++ [(x.event.key.map, x.event.instanceId)] }.eraseBegin
    else m.eraseBegin
  else
    let resetTime := m.resetTime x.event.key
    let m := { m with handled := (x.event.key, x.event.type) :: m.handled }
    let m := m.resetOrWarnAll cfg x.event.key (x.event.type ≠ 4) resetTime
    if x.event.type ≠ 4 then
      let event := { x.event with type := x.event.type + 1 }
      -- the event is changed in its place, and its copy inserted
      let m := { m with queue := { x with event } :: m.queue.tail }
      (m.insert ⟨resetTime - resetTimeDelay event.type, event, x.owner⟩).eraseBegin
    else m.eraseBegin

/-- The loop of `Update`. -/
def iterate : Manager :=
  match m.now, m.queue with
  | some now, x :: _ => if x.time ≥ now then { m with now := none } else m.handle cfg x
  | _, _ => { m with now := none }

def dueResets (now : ℤ) (queue : List Entry) : List (UInt16 × ℕ) :=
  (queue.filter fun x => x.event.type = 0 ∧ x.time < now).map fun x => (x.event.key.map, x.owner)

/-- `Update` begins. -/
def update (now : ℤ) : Manager :=
  { m with now := some now, due := dueResets now m.queue, done := [] }

end Manager

/-- What happens to the schedule: events of single instances come and go, and `Update`
runs. -/
inductive Op where
  | schedule (time : ℤ) (key : Key) (id : ℕ)
  | cancel (time : ℤ) (key : Key) (id : ℕ)
  | update (now : ℤ)
  | iterate

/-- One step; while `Update` runs nothing else happens. -/
def step (cfg : Config) (m : Manager) : Op → Manager
  | .schedule time key id =>
    if m.now.isNone then m.insert ⟨time, .make 0 key id, id⟩ else m
  | .cancel time key id => if m.now.isNone then m.cancel time (.make 0 key id) else m
  | .update now => if m.now.isNone then m.update now else m
  | .iterate => m.iterate cfg

/-! ### What is promised, and what is proved -/

/-- What is promised of the tables: instance ids fit into 16 bits, instances are of maps that
have them, and those with a reset time of their own are of no map and difficulty with a
reset period. -/
structure LoadMeets (cfg : Config) (rows : List Row) : Prop where
  id : ∀ r ∈ rows, 0 < r.id ∧ r.id < 2 ^ 16
  map : ∀ r ∈ rows, cfg.instanceable r.key.map = true
  key : ∀ r ∈ rows, cfg.period r.key = none
  instanceable : ∀ key, (cfg.period key).isSome → cfg.instanceable key.map = true

/-- **What is promised of a step**: instance ids fit into 16 bits, and the first warning for
the next reset is not due before the reset that is handled. -/
def Meets (cfg : Config) (m : Manager) : Op → Prop
  | .schedule _ key id =>
    m.now = none → (0 < id ∧ id < 2 ^ 16) ∧ cfg.instanceable key.map = true
  | .cancel _ _ id => m.now = none → 0 < id ∧ id < 2 ^ 16
  | .update _ => True
  | .iterate => ∀ now ∈ m.now, ∀ x ∈ m.queue.head?, x.time < now → x.event.type = 4 →
      ∀ period ∈ cfg.period x.event.key,
        3600 ≤ Manager.nextReset period cfg.diff (m.resetTime x.event.key) ∧
        Manager.nextReset period cfg.diff (m.resetTime x.event.key) < 2 ^ 32 ∧
        x.time ≤ Manager.nextReset period cfg.diff (m.resetTime x.event.key) - 3600

def Entry.isGlobal (key : Key) (x : Entry) : Bool := x.event.type ≠ 0 && x.event.key = key

/-- **One global event is pending** for each map and difficulty with a reset period, at its
reset time less the delay of its type. -/
def OnePending (cfg : Config) (m : Manager) : Prop :=
  ∀ key, (cfg.period key).isSome → ∃ x, m.queue.filter (Entry.isGlobal key) = [x] ∧
    x.event.type ≤ 4 ∧ x.time = m.resetTime key - resetTimeDelay x.event.type

/-- The types of the global events of a map and difficulty handled so far. -/
def typesOf (key : Key) (handled : List (Key × ℕ)) : List ℕ :=
  (handled.filter fun h => h.1 = key).map Prod.snd

/-- **Warnings and reset take turns**: after type `1`, `2`, `3` comes the next, after the
reset `4` comes `1`. -/
def InTurn (m : Manager) : Prop :=
  ∀ key, (typesOf key m.handled).IsChain fun later earlier => later = earlier % 4 + 1

/-- **What is proved of a step.**  One global event is pending everywhere and they take
turns; an `Update` that is over has reset the instances that were due, and a cancellation
takes nothing but an event of its instance. -/
def Sound (cfg : Config) (m : Manager) (op : Op) : Prop :=
  OnePending cfg m ∧ InTurn m ∧ (m.now = none → m.done = m.due) ∧
    ∀ time key id, op = .cancel time key id → m.now = none →
      (m.cancel time (.make 0 key id)).queue = m.queue ∨
      ∃ x, x.owner = id ∧ x.event.type = 0 ∧
        m.queue.Perm (x :: (m.cancel time (.make 0 key id)).queue)

/-! ### The invariant -/

/-- **The invariant of the schedule**, where the maps and difficulties in `P` have a global
event. -/
structure Ready (cfg : Config) (P : Key → Prop) (m : Manager) : Prop where
  sorted : m.queue.Pairwise fun x y => x.time ≤ y.time
  single : ∀ x ∈ m.queue, x.event.type = 0 → x.owner = x.event.instanceId ∧
    cfg.instanceable x.event.key.map = true
  global : ∀ x ∈ m.queue, x.event.type ≠ 0 → x.event.type ≤ 4 ∧ x.event.instanceId = 0 ∧
    P x.event.key ∧ x.time = m.resetTime x.event.key - resetTimeDelay x.event.type
  pending : ∀ key, P key → m.queue.countP (Entry.isGlobal key) = 1
  turn : InTurn m
  last : ∀ key, ∀ τ ∈ (typesOf key m.handled).head?, ∀ x ∈ m.queue, x.isGlobal key = true →
    x.event.type = τ % 4 + 1
  done : m.done ++ (m.now.elim [] fun now => Manager.dueResets now m.queue) = m.due

section Steps

variable {cfg : Config} {P : Key → Prop} {m : Manager} {x y : Entry} {rest : List Entry}

theorem resetTimeDelay_succ {type : ℕ} (h0 : type ≠ 0) (h4 : type < 4) :
    resetTimeDelay (type + 1) < resetTimeDelay type := by
  have h : type = 1 ∨ type = 2 ∨ type = 3 := by omega
  rcases h with rfl | rfl | rfl <;> decide

theorem Ready.insert (h : Ready cfg P m) (hnow : m.now = none) (htype : x.event.type = 0)
    (howner : x.owner = x.event.instanceId)
    (hmap : cfg.instanceable x.event.key.map = true) : Ready cfg P (m.insert x) where
  sorted := by
    refine pairwise_insert h.sorted (fun b _ hle => hle) (fun b _ hlt => hlt.le) h.sorted
  single := by
    intro y hy h0
    rcases mem_insert.mp hy with rfl | hy
    · exact ⟨howner, hmap⟩
    · exact h.single y hy h0
  global := by
    intro y hy h0
    rcases mem_insert.mp hy with rfl | hy
    · exact (h0 htype).elim
    · exact h.global y hy h0
  pending key hkey := by
    have hx : x.isGlobal key = false := by simp [Entry.isGlobal, htype]
    show (Multimap.insert Entry.time x m.queue).countP (Entry.isGlobal key) = 1
    rw [Multimap.insert_perm.countP_eq, countP_cons, hx]
    exact h.pending key hkey
  turn := h.turn
  last key τ hτ y hy hglobal := by
    rcases mem_insert.mp hy with rfl | hy
    · simp [Entry.isGlobal, htype] at hglobal
    · exact h.last key τ hτ y hy hglobal
  done := by
    have hdone := h.done
    show m.done ++ m.now.elim [] _ = m.due
    rw [hnow] at hdone ⊢
    exact hdone

variable {queue : List Entry}

theorem Ready.remove (h : Ready cfg P m) (hsub : queue.Sublist m.queue)
    (hcount : ∀ key, queue.countP (Entry.isGlobal key) = m.queue.countP (Entry.isGlobal key))
    {done : List (UInt16 × ℕ)}
    (hdone : done ++ (m.now.elim [] fun now => Manager.dueResets now queue) = m.due) :
    Ready cfg P { m with queue, done } where
  sorted := h.sorted.sublist hsub
  single x hx := h.single x (hsub.subset hx)
  global x hx := h.global x (hsub.subset hx)
  pending key hkey := (hcount key).trans (h.pending key hkey)
  turn := h.turn
  last key τ hτ x hx := h.last key τ hτ x (hsub.subset hx)
  done := hdone

variable {id : ℕ} {key : Key}

/-- What the events that equal one of an instance are: events of that instance. -/
theorem Ready.same_iff (h : Ready cfg P m) (hid : 0 < id ∧ id < 2 ^ 16)
    (hx : x ∈ m.queue) (hsame : x.event.same (.make 0 key id) = true) :
    x.owner = id ∧ x.event.type = 0 := by
  have heq : x.event.instanceId = id := by
    have : id % 2 ^ 16 = x.event.instanceId := of_decide_eq_true hsame
    omega
  have htype : x.event.type = 0 := by
    by_contra hne
    have := (h.global x hx hne).2.1
    omega
  exact ⟨(h.single x hx htype).1.trans heq, htype⟩

/-- **A cancellation** takes an event of its instance, or nothing. -/
theorem Ready.cancel_cases (h : Ready cfg P m) (hid : 0 < id ∧ id < 2 ^ 16) (time : ℤ)
    (key : Key) : (m.cancel time (.make 0 key id)).queue = m.queue ∨
      ∃ x, x.owner = id ∧ x.event.type = 0 ∧
        m.queue.Perm (x :: (m.cancel time (.make 0 key id)).queue) := by
  have herase : ∀ p : Entry → Bool, (∀ x, p x = true → x.event.same (.make 0 key id) = true) →
      m.queue.eraseP p = m.queue ∨ ∃ x, x.owner = id ∧ x.event.type = 0 ∧
        m.queue.Perm (x :: m.queue.eraseP p) := by
    intro p hp
    rcases exists_or_eq_self_of_eraseP p m.queue with heq | ⟨x, l1, l2, -, hpx, hl, hel⟩
    · exact .inl heq
    refine .inr ⟨x, ?_⟩
    have hx : x ∈ m.queue := by
      rw [hl]
      exact mem_append_right _ mem_cons_self
    obtain ⟨howner, htype⟩ := h.same_iff hid hx (hp x hpx)
    refine ⟨howner, htype, ?_⟩
    rw [hel, hl]
    exact perm_middle
  unfold Manager.cancel
  split_ifs
  · exact herase _ fun x hx => by
      simp only [decide_eq_true_eq] at hx
      exact hx.2
  · exact herase _ fun x hx => hx

theorem Ready.cancel (h : Ready cfg P m) (hid : 0 < id ∧ id < 2 ^ 16)
    (hnow : m.now = none) (time : ℤ) : Ready cfg P (m.cancel time (.make 0 key id)) := by
  have hframe : ∃ queue, m.cancel time (.make 0 key id) = { m with queue } ∧
      queue.Sublist m.queue := by
    unfold Manager.cancel
    split_ifs <;> exact ⟨_, rfl, eraseP_sublist⟩
  obtain ⟨queue, heq, hsub⟩ := hframe
  have hcases := h.cancel_cases hid time key
  rw [heq] at hcases ⊢
  refine h.remove hsub (fun k => ?_) ?_
  · rcases hcases with hsame | ⟨x, -, htype, hperm⟩
    · rw [show queue = m.queue from hsame]
    have hx : x.isGlobal k = false := by simp [Entry.isGlobal, htype]
    rw [hperm.countP_eq, countP_cons, hx]
    rfl
  have hdone := h.done
  rw [hnow] at hdone ⊢
  exact hdone

/-! ### Handling the front -/

theorem isGlobal_iff : x.isGlobal key = true ↔ x.event.type ≠ 0 ∧ x.event.key = key := by
  simp [Entry.isGlobal]

theorem typesOf_cons (key k : Key) (τ : ℕ) (handled : List (Key × ℕ)) :
    typesOf key ((k, τ) :: handled) =
      if k = key then τ :: typesOf key handled else typesOf key handled := by
  unfold typesOf
  split_ifs <;> simp_all

variable {now : ℤ}

/-- **A global event gives way to the next**: of the same map and difficulty, of the type
whose turn it is, at the right time before a reset time that may be new. -/
theorem Ready.replace (h : Ready cfg P m) (hnow : m.now = some now)
    (hqueue : m.queue = x :: rest) (hx : x.event.type ≠ 0)
    {resetTime : Key → ℤ} (hreset : ∀ k ≠ x.event.key, resetTime k = m.resetTime k)
    (hkey : y.event.key = x.event.key) (htype : y.event.type = x.event.type % 4 + 1)
    (hid : y.event.instanceId = 0)
    (htime : y.time = resetTime x.event.key - resetTimeDelay y.event.type) : Ready cfg P { m with
      queue := Multimap.insert Entry.time y rest, resetTime
      handled := (x.event.key, x.event.type) :: m.handled } := by
  have hxmem : x ∈ m.queue := hqueue ▸ mem_cons_self
  have hsub : ∀ z ∈ rest, z ∈ m.queue := fun z hz => hqueue ▸ mem_cons_of_mem _ hz
  have hsorted : rest.Pairwise fun x y => x.time ≤ y.time := (hqueue ▸ h.sorted).tail
  obtain ⟨-, -, hperiod, -⟩ := h.global x hxmem hx
  have hyglobal : ∀ key, y.isGlobal key = x.isGlobal key := by
    intro key
    rw [Bool.eq_iff_iff, isGlobal_iff, isGlobal_iff, hkey, htype]
    exact and_congr_left fun _ => ⟨fun _ => hx, fun _ => Nat.succ_ne_zero _⟩
  have hxself : x.isGlobal x.event.key = true := isGlobal_iff.mpr ⟨hx, rfl⟩
  -- no other global event of this map and difficulty is pending
  have hother : ∀ z ∈ rest, z.event.type ≠ 0 → z.event.key ≠ x.event.key := by
    intro z hz hz0 heq
    have hone := h.pending _ hperiod
    rw [hqueue, countP_cons, hxself] at hone
    have : 0 < rest.countP (Entry.isGlobal x.event.key) :=
      countP_pos_iff.mpr ⟨z, hz, isGlobal_iff.mpr ⟨hz0, heq⟩⟩
    simp only [if_true] at hone
    omega
  refine ⟨?_, ?_, ?_, ?_, ?_, ?_, ?_⟩
  · exact pairwise_insert hsorted (fun b _ hle => hle) (fun b _ hlt => hlt.le) hsorted
  · intro z hz h0
    rcases mem_insert.mp hz with rfl | hz
    · rw [htype] at h0
      exact absurd h0 (Nat.succ_ne_zero _)
    · exact h.single z (hsub z hz) h0
  · intro z hz h0
    rcases mem_insert.mp hz with rfl | hz
    · refine ⟨by omega, hid, hkey ▸ hperiod, ?_⟩
      rw [hkey]
      exact htime
    obtain ⟨h1, h2, h3, h4⟩ := h.global z (hsub z hz) h0
    refine ⟨h1, h2, h3, ?_⟩
    rw [h4]
    dsimp only
    rw [hreset _ (hother z hz h0)]
  · intro key hkey'
    have hold := h.pending key hkey'
    rw [hqueue, countP_cons] at hold
    rw [insert_perm.countP_eq, countP_cons, hyglobal]
    exact hold
  · intro key
    rw [typesOf_cons]
    split_ifs with hk
    · subst hk
      refine isChain_cons.mpr ⟨fun τ hτ => ?_, h.turn _⟩
      exact h.last _ τ hτ x hxmem hxself
    · exact h.turn key
  · intro key τ hτ z hz hglobal
    rw [typesOf_cons] at hτ
    obtain ⟨hz0, hzkey⟩ := isGlobal_iff.mp hglobal
    split_ifs at hτ with hk
    · obtain rfl : x.event.type = τ := Option.some.inj hτ
      rcases mem_insert.mp hz with rfl | hz
      · exact htype
      · exact (hother z hz hz0 (hzkey.trans hk.symm)).elim
    rcases mem_insert.mp hz with rfl | hz
    · exact (hk (hkey.symm.trans hzkey)).elim
    · exact h.last key τ hτ z (hsub z hz) hglobal
  have hdone := h.done
  rw [hnow, hqueue] at hdone
  rw [hnow]
  have hsame : Manager.dueResets now (Multimap.insert Entry.time y rest) =
      Manager.dueResets now (x :: rest) := by
    unfold Manager.dueResets
    rw [Multimap.filter_insert_of_neg (by simp [htype]), filter_cons_of_neg (by simp [hx])]
  exact (congrArg _ hsame).trans hdone

theorem Manager.tail_insert (hle : x.time ≤ y.time) :
    (Multimap.insert Entry.time y (x :: rest)).tail = Multimap.insert Entry.time y rest := by
  rw [Multimap.insert, if_pos hle]
  rfl

/-- **What a round of `Update` does**: the event of an instance is done and erased, a global
one gives way to the next of its map and difficulty, which is not earlier. -/
theorem Ready.handle_cases (h : Ready cfg P m) (hnow : m.now = some now)
    (hcfg : ∀ key, P key → (cfg.period key).isSome ∧ cfg.instanceable key.map = true)
    (hqueue : m.queue = x :: rest) (hdue : x.time < now) (hmeets : Meets cfg m .iterate) :
    (x.event.type = 0 ∧ m.handle cfg x =
      { m with queue := rest, done := m.done ++ [(x.event.key.map, x.owner)] }) ∨
    (x.event.type ≠ 0 ∧ ∃ y resetTime, m.handle cfg x = { m with
        queue := Multimap.insert Entry.time y rest, resetTime
        handled := (x.event.key, x.event.type) :: m.handled } ∧
      (∀ k ≠ x.event.key, resetTime k = m.resetTime k) ∧ y.event.key = x.event.key ∧
      y.event.type = x.event.type % 4 + 1 ∧ y.event.instanceId = 0 ∧
      y.time = resetTime x.event.key - resetTimeDelay y.event.type ∧
      x.time ≤ y.time ∧ (x.event.type ≠ 4 → x.time < y.time)) := by
  have hxmem : x ∈ m.queue := hqueue ▸ mem_cons_self
  unfold Manager.handle
  split_ifs with h0 hinst h4
  · refine .inl ⟨h0, ?_⟩
    rw [(h.single x hxmem h0).1]
    rw [hqueue]
    rfl
  · exact (hinst (h.single x hxmem h0).2).elim
  · -- a warning
    obtain ⟨hle, hid, -, htime⟩ := h.global x hxmem h0
    have hlt := resetTimeDelay_succ h0 (lt_of_le_of_ne hle h4)
    have hwarn : ∀ m' : Manager, m'.resetOrWarnAll cfg x.event.key (x.event.type ≠ 4)
        (m.resetTime x.event.key) = m' := by
      intro m'
      unfold Manager.resetOrWarnAll
      simp [h4]
    refine .inr ⟨h0, ⟨m.resetTime x.event.key - resetTimeDelay (x.event.type + 1),
      { x.event with type := x.event.type + 1 }, x.owner⟩, m.resetTime, ?_, fun _ _ => rfl, rfl,
      ?_, hid, rfl, ?_, fun _ => ?_⟩
    · dsimp only
      rw [hwarn]
      unfold Manager.insert Manager.eraseBegin
      rw [hqueue, tail_cons, Manager.tail_insert]
      dsimp only
      omega
    · dsimp only
      omega
    · dsimp only
      omega
    dsimp only
    omega
  -- the reset, and the first warning for the next one
  rw [not_not] at h4
  obtain ⟨hle, hid, hP, htime⟩ := h.global x hxmem h0
  obtain ⟨hperiod, hinst⟩ := hcfg _ hP
  obtain ⟨period, hp⟩ := Option.isSome_iff_exists.mp hperiod
  obtain ⟨hlow, hhigh, hafter⟩ := hmeets now hnow x (by rw [hqueue]; rfl) hdue h4 period hp
  obtain ⟨next, hnext⟩ :
      ∃ next, next = Manager.nextReset period cfg.diff (m.resetTime x.event.key) := ⟨_, rfl⟩
  rw [← hnext] at hlow hhigh hafter
  have hmod : next % 2 ^ 32 = next := by omega
  have hmod' : (next - 3600) % 2 ^ 32 = next - 3600 := by omega
  refine .inr ⟨h0, ⟨next - 3600, .make 1 x.event.key 0, 0⟩,
    update m.resetTime x.event.key next, ?_, fun k hk => update_of_ne hk _ _,
    rfl, ?_, rfl, ?_, hafter, fun hne => (hne h4).elim⟩
  · dsimp only
    unfold Manager.resetOrWarnAll
    rw [hinst, hp]
    simp only [Bool.not_true, Bool.false_eq_true, if_false, h4, ne_eq, not_true_eq_false,
      decide_false, ← hnext, hmod, hmod']
    unfold Manager.setResetTimeFor Manager.insert Manager.eraseBegin
    rw [hqueue, Manager.tail_insert hafter]
  · rw [h4]
    rfl
  rw [update_self]
  rfl

/-- **A round of `Update` keeps the invariant.** -/
theorem Ready.handle (h : Ready cfg P m) (hnow : m.now = some now)
    (hcfg : ∀ key, P key → (cfg.period key).isSome ∧ cfg.instanceable key.map = true)
    (hqueue : m.queue = x :: rest) (hdue : x.time < now) (hmeets : Meets cfg m .iterate) :
    Ready cfg P (m.handle cfg x) := by
  rcases h.handle_cases hnow hcfg hqueue hdue hmeets with
    ⟨h0, heq⟩ | ⟨h0, y, resetTime, heq, hreset, hkey, htype, hid, htime, -, -⟩
  · rw [heq]
    refine h.remove (hqueue ▸ sublist_cons_self x rest) (fun key => ?_) ?_
    · have hx : x.isGlobal key = false := by simp [Entry.isGlobal, h0]
      rw [hqueue, countP_cons, hx]
      rfl
    have hdone := h.done
    rw [hnow, hqueue] at hdone
    rw [hnow, ← hdone]
    simp [Manager.dueResets, h0, hdue]
  rw [heq]
  exact h.replace hnow hqueue h0 hreset hkey htype hid htime

/-! ### The end of an update -/

/-- How much an `Update` at `now` has to do with an event. -/
def Entry.work (now : ℤ) (x : Entry) : ℕ :=
  2 * (now - x.time).toNat + if x.event.type = 4 then 1 else 0

/-- How much the running `Update` has to do. -/
def Manager.work (m : Manager) : ℕ :=
  m.now.elim 0 fun now => (m.queue.map (Entry.work now)).sum + 1

theorem Ready.work_iterate (h : Ready cfg P m)
    (hcfg : ∀ key, P key → (cfg.period key).isSome ∧ cfg.instanceable key.map = true)
    (hmeets : Meets cfg m .iterate) (hrunning : m.now.isSome) : (m.iterate cfg).work < m.work := by
  obtain ⟨now, hnow⟩ := Option.isSome_iff_exists.mp hrunning
  have hpos : 0 < m.work := by
    unfold Manager.work
    rw [hnow]
    exact Nat.succ_pos _
  unfold Manager.iterate
  split
  · next now' x rest hnow' hqueue =>
      obtain rfl : now = now' := Option.some.inj (hnow.symm.trans hnow')
      split_ifs with hover
      · exact hpos
      rw [ge_iff_le, not_le] at hover
      have hold : m.work = x.work now + (rest.map (Entry.work now)).sum + 1 := by
        unfold Manager.work
        rw [hnow, hqueue]
        rfl
      have hnonneg : 2 ≤ x.work now := by
        unfold Entry.work
        omega
      rcases h.handle_cases hnow hcfg hqueue hover hmeets with
        ⟨-, heq⟩ | ⟨-, y, resetTime, heq, -, -, htype, -, -, hle, hlt⟩
      · have hnew : (m.handle cfg x).work = (rest.map (Entry.work now)).sum + 1 := by
          rw [heq]
          rw [hnow]
          rfl
        omega
      have hnew : (m.handle cfg x).work = y.work now + (rest.map (Entry.work now)).sum + 1 := by
        unfold Manager.work
        rw [heq]
        rw [hnow, Option.elim_some, (Multimap.insert_perm.map (Entry.work now)).sum_eq]
        rfl
      have hless : y.work now < x.work now := by
        unfold Entry.work
        rcases eq_or_ne x.event.type 4 with h4 | h4
        · rw [htype, h4, if_neg (by decide), if_pos rfl]
          omega
        have := hlt h4
        split_ifs <;> omega
      omega
  · exact hpos

theorem dueResets_eq_nil (h : ∀ x ∈ queue, now ≤ x.time) : Manager.dueResets now queue = [] := by
  unfold Manager.dueResets
  rw [map_eq_nil_iff, filter_eq_nil_iff]
  intro x hx
  have := h x hx
  simp only [decide_eq_true_eq, not_and, not_lt]
  exact fun _ => this

section

variable (h : Ready cfg P m)

include h

theorem Ready.finish (hover : ∀ now ∈ m.now, ∀ x ∈ m.queue, now ≤ x.time) :
    Ready cfg P { m with now := none } := by
  refine { h with done := ?_ }
  have hdone := h.done
  cases hnow : m.now with
  | none =>
    rw [hnow] at hdone
    exact hdone
  | some now =>
    rw [hnow] at hdone
    have hnil := dueResets_eq_nil (hover now hnow)
    rw [Option.elim_some, hnil] at hdone
    exact hdone

theorem Ready.iterate
    (hcfg : ∀ key, P key → (cfg.period key).isSome ∧ cfg.instanceable key.map = true)
    (hmeets : Meets cfg m .iterate) : Ready cfg P (m.iterate cfg) := by
  unfold Manager.iterate
  split
  · next now x rest hnow hqueue =>
      split_ifs with hover
      · refine h.finish fun n hn z hz => ?_
        obtain rfl : now = n := Option.some.inj (hnow.symm.trans hn)
        rw [hqueue] at hz
        rcases mem_cons.mp hz with rfl | hz
        · exact hover
        · exact le_trans hover ((pairwise_cons.mp (hqueue ▸ h.sorted)).1 z hz)
      · exact h.handle hnow hcfg hqueue (not_le.mp hover) hmeets
  next hnot =>
    refine h.finish fun n hn z hz => ?_
    cases hqueue : m.queue with
    | nil =>
      rw [hqueue] at hz
      cases hz
    | cons w ws => exact (hnot n w ws hn hqueue).elim

/-- **Every step that meets its promise keeps the invariant.** -/
theorem Ready.step (hcfg : ∀ key, P key → (cfg.period key).isSome ∧ cfg.instanceable key.map = true)
    {op : Op} (hmeets : Meets cfg m op) : Ready cfg P (step cfg m op) := by
  cases op with
  | schedule time key id =>
    unfold InstanceSaveManager.step
    split_ifs with hnow
    · have hnow' := Option.isNone_iff_eq_none.mp hnow
      obtain ⟨hid, hmap⟩ := hmeets hnow'
      exact h.insert hnow' rfl (Nat.mod_eq_of_lt hid.2).symm hmap
    · exact h
  | cancel time key id =>
    unfold InstanceSaveManager.step
    split_ifs with hnow
    · have hnow' := Option.isNone_iff_eq_none.mp hnow
      exact h.cancel (hmeets hnow') hnow' time
    · exact h
  | update now =>
    unfold InstanceSaveManager.step
    split_ifs
    · exact { h with done := rfl }
    · exact h
  | iterate => exact h.iterate hcfg hmeets

theorem Ready.onePending (hP : ∀ key, (cfg.period key).isSome → P key) : OnePending cfg m := by
  intro key hkey
  have hone := h.pending key (hP key hkey)
  rw [countP_eq_length_filter, length_eq_one_iff] at hone
  obtain ⟨x, hx⟩ := hone
  have hmem : x ∈ m.queue.filter (Entry.isGlobal key) := by
    rw [hx]
    exact mem_singleton_self x
  obtain ⟨hxmem, hglobal⟩ := mem_filter.mp hmem
  obtain ⟨h0, rfl⟩ := isGlobal_iff.mp hglobal
  obtain ⟨hle, -, -, htime⟩ := h.global x hxmem h0
  exact ⟨x, hx, hle, htime⟩

theorem Ready.sound (hP : ∀ key, (cfg.period key).isSome → P key) (op : Op)
    (hmeets : Meets cfg m op) : Sound cfg m op := by
  refine ⟨h.onePending hP, h.turn, fun hnow => ?_, ?_⟩
  · have hdone := h.done
    rw [hnow, Option.elim_none, append_nil] at hdone
    exact hdone
  rintro time key id rfl hnow
  exact h.cancel_cases (hmeets hnow) time key

end

/-! ### Loading -/

theorem Config.period_isSome (cfg : Config) (key : Key) :
    (cfg.period key).isSome ↔ key ∈ cfg.periods.map Prod.fst := by
  unfold Config.period
  simp

theorem startType_bounds (now t : ℤ) : 0 < Manager.startType now t ∧ Manager.startType now t ≤ 4 := by
  unfold Manager.startType
  split_ifs <;> decide

theorem ready_empty (cfg : Config) : Ready cfg (fun _ => False) {} where
  sorted := Pairwise.nil
  single _ h := by cases h
  global _ h := by cases h
  pending _ h := h.elim
  turn _ := isChain_nil
  last _ _ h := by cases h
  done := rfl

theorem Ready.setResetTimeFor (h : Ready cfg (fun _ => False) m) (key : Key) (t : ℤ) :
    Ready cfg (fun _ => False) (m.setResetTimeFor key t) :=
  { h with global := fun x hx h0 => (h.global x hx h0).2.2.1.elim, pending := fun _ hF => hF.elim }

variable {rows : List Row}

/-- **A map and difficulty is loaded**: it gets its global event. -/
theorem Ready.loadKey (h : Ready cfg P m) (hnow : m.now = none) (hhandled : m.handled = [])
    (now : ℤ) (hkey : (cfg.period key).isSome) (hP : ¬ P key) (hrows : ∀ r ∈ rows, r.key ≠ key) :
    Ready cfg (fun k => P k ∨ k = key) (Manager.loadKey cfg now rows m key) ∧
      (Manager.loadKey cfg now rows m key).now = none ∧
      (Manager.loadKey cfg now rows m key).handled = [] := by
  obtain ⟨period, hperiod⟩ := Option.isSome_iff_exists.mp hkey
  have hnone : (rows.filter fun r => r.key = key) = [] := by
    rw [filter_eq_nil_iff]
    exact fun r hr => by simpa using hrows r hr
  unfold Manager.loadKey
  rw [hperiod, hnone]
  dsimp only
  obtain ⟨t, ht⟩ : ∃ t, t = Manager.startTime now period cfg.diff (m.resetTime key) := ⟨_, rfl⟩
  rw [← ht, foldl_nil]
  obtain ⟨hpos, hle⟩ := startType_bounds now t
  have hnotkey : ∀ z ∈ m.queue, z.event.type ≠ 0 → z.event.key ≠ key := by
    intro z hz hz0 heq
    exact hP (heq ▸ (h.global z hz hz0).2.2.1)
  refine ⟨⟨?_, ?_, ?_, ?_, ?_, ?_, ?_⟩, hnow, hhandled⟩
  · exact pairwise_insert h.sorted (fun b _ hle => hle) (fun b _ hlt => hlt.le) h.sorted
  · intro z hz h0
    rcases mem_insert.mp hz with rfl | hz
    · exact absurd h0 hpos.ne'
    · exact h.single z hz h0
  · intro z hz h0
    rcases mem_insert.mp hz with rfl | hz
    · refine ⟨hle, rfl, .inr rfl, ?_⟩
      show t - _ = (update m.resetTime key t) key - _
      rw [update_self]
      rfl
    obtain ⟨h1, h2, h3, h4⟩ := h.global z hz h0
    refine ⟨h1, h2, .inl h3, ?_⟩
    rw [h4]
    show m.resetTime z.event.key - _ = (update m.resetTime key t) z.event.key - _
    rw [update_of_ne (hnotkey z hz h0)]
  · intro k hk
    show (Multimap.insert Entry.time _ m.queue).countP (Entry.isGlobal k) = 1
    rw [Multimap.insert_perm.countP_eq, countP_cons]
    rcases hk with hk | rfl
    · have hne : key ≠ k := fun heq => hP (heq ▸ hk)
      have hx : Entry.isGlobal k ⟨t - resetTimeDelay (Manager.startType now t),
          .make (Manager.startType now t) key 0, 0⟩ = false := by
        simp [Entry.isGlobal, InstResetEvent.make, hne]
      rw [hx]
      exact h.pending k hk
    have hx : Entry.isGlobal k ⟨t - resetTimeDelay (Manager.startType now t),
        .make (Manager.startType now t) k 0, 0⟩ = true :=
      isGlobal_iff.mpr ⟨hpos.ne', rfl⟩
    have hzero : m.queue.countP (Entry.isGlobal k) = 0 := by
      rw [countP_eq_zero]
      intro z hz hglobal
      obtain ⟨hz0, hzkey⟩ := isGlobal_iff.mp hglobal
      exact hnotkey z hz hz0 hzkey
    rw [hx, hzero]
    rfl
  · intro k
    show (typesOf k m.handled).IsChain _
    exact h.turn k
  · intro k τ hτ
    have hempty : τ ∈ (typesOf k m.handled).head? := hτ
    rw [hhandled] at hempty
    cases hempty
  have hdone := h.done
  show m.done ++ m.now.elim [] _ = m.due
  rw [hnow] at hdone ⊢
  exact hdone

theorem Ready.loadKeys {keys : List Key} (h : Ready cfg P m) (hnow : m.now = none)
    (hhandled : m.handled = []) (now : ℤ) (rows : List Row) (hnodup : keys.Nodup)
    (hkeys : ∀ key ∈ keys, (cfg.period key).isSome ∧ ¬ P key ∧ ∀ r ∈ rows, r.key ≠ key) :
    Ready cfg (fun k => P k ∨ k ∈ keys) (keys.foldl (Manager.loadKey cfg now rows) m) := by
  induction keys generalizing P m with
  | nil => simpa using h
  | cons key keys ih =>
    obtain ⟨hsome, hP, hrows⟩ := hkeys key mem_cons_self
    obtain ⟨hnotin, hnodup⟩ := nodup_cons.mp hnodup
    obtain ⟨hone, hnow', hhandled'⟩ := h.loadKey hnow hhandled now hsome hP hrows
    have hrest := ih hone hnow' hhandled' hnodup fun k hk => by
      obtain ⟨h1, h2, h3⟩ := hkeys k (mem_cons_of_mem _ hk)
      refine ⟨h1, ?_, h3⟩
      rintro (hPk | rfl)
      · exact h2 hPk
      · exact hnotin hk
    have hsame : (fun k => (P k ∨ k = key) ∨ k ∈ keys) = fun k => P k ∨ k ∈ key :: keys := by
      funext k
      rw [mem_cons, or_assoc]
    rw [← hsame]
    exact hrest

/-- **Loading** gives every map and difficulty with a reset period one global event. -/
theorem ready_load (h : LoadMeets cfg rows) (now : ℤ) (resets : List (Key × ℤ)) :
    Ready cfg (fun key => (cfg.period key).isSome = true)
      (Manager.loadResetTimes cfg now rows resets) := by
  have hrows : ∀ (l : List Row) (m : Manager), (∀ r ∈ l, r ∈ rows) → m.now = none →
      m.handled = [] → Ready cfg (fun _ => False) m →
      Ready cfg (fun _ => False)
          (l.foldl (fun m r => m.insert ⟨r.resetTime, .make 0 r.key r.id, r.id⟩) m) ∧
        (l.foldl (fun m r => m.insert ⟨r.resetTime, .make 0 r.key r.id, r.id⟩) m).now = none ∧
        (l.foldl (fun m r => m.insert ⟨r.resetTime, .make 0 r.key r.id, r.id⟩) m).handled = [] := by
    intro l
    induction l with
    | nil => exact fun m _ hnow hhandled hm => ⟨hm, hnow, hhandled⟩
    | cons r l ih =>
      intro m hl hnow hhandled hm
      have hr := hl r mem_cons_self
      exact ih _ (fun q hq => hl q (mem_cons_of_mem _ hq)) hnow hhandled
        (hm.insert hnow rfl (Nat.mod_eq_of_lt (h.id r hr).2).symm (h.map r hr))
  have hresets : ∀ (l : List (Key × ℤ)) (m : Manager), m.now = none → m.handled = [] →
      Ready cfg (fun _ => False) m →
      Ready cfg (fun _ => False)
          (l.foldl (fun m r => m.setResetTimeFor r.1 (r.2 / day * day + cfg.diff)) m) ∧
        (l.foldl (fun m r => m.setResetTimeFor r.1 (r.2 / day * day + cfg.diff)) m).now = none ∧
        (l.foldl (fun m r => m.setResetTimeFor r.1 (r.2 / day * day + cfg.diff)) m).handled = [] := by
    intro l
    induction l with
    | nil => exact fun m hnow hhandled hm => ⟨hm, hnow, hhandled⟩
    | cons r l ih =>
      exact fun m hnow hhandled hm => ih _ hnow hhandled (hm.setResetTimeFor _ _)
  obtain ⟨h1, hnow1, hhandled1⟩ := hrows (rows.filter fun r => r.resetTime > now) {}
    (fun r hr => (mem_filter.mp hr).1) rfl rfl (ready_empty cfg)
  obtain ⟨h2, hnow2, hhandled2⟩ := hresets resets _ hnow1 hhandled1 h1
  have h3 := h2.loadKeys hnow2 hhandled2 now rows cfg.distinct fun key hkey => by
    have hsome := (cfg.period_isSome key).mpr hkey
    refine ⟨hsome, not_false, ?_⟩
    rintro r hr rfl
    rw [h.key r hr] at hsome
    cases hsome
  have hsame : (fun key => (cfg.period key).isSome = true) =
      fun k => False ∨ k ∈ cfg.periods.map Prod.fst := by
    funext key
    rw [false_or, cfg.period_isSome]
  rw [hsame]
  exact h3

end Steps

/-- An `Update` whose rounds meet their promise is over after as many rounds as it has work. -/
theorem update_ends {cfg : Config} {P : Key → Prop}
    (hcfg : ∀ key, P key → (cfg.period key).isSome ∧ cfg.instanceable key.map = true) (n : ℕ) :
    ∀ m : Manager, Ready cfg P m → m.work ≤ n →
      Along (step cfg) (Meets cfg) m (replicate n .iterate) →
      ((replicate n Op.iterate).foldl (step cfg) m).now = none := by
  have hzero : ∀ m : Manager, m.work = 0 → m.now = none := by
    intro m hm
    unfold Manager.work at hm
    cases hnow : m.now with
    | none => rfl
    | some now =>
      rw [hnow] at hm
      cases hm
  induction n with
  | zero => exact fun m _ hwork _ => hzero m (Nat.le_zero.mp hwork)
  | succ n ih =>
    intro m h hwork halong
    refine ih (m.iterate cfg) (h.iterate hcfg halong.1) ?_ halong.2
    cases hnow : m.now with
    | none =>
      have hidle : m.iterate cfg = m := by
        cases m
        cases hnow
        rfl
      rw [hidle]
      unfold Manager.work
      rw [hnow]
      exact Nat.zero_le n
    | some now =>
      have := h.work_iterate hcfg halong.1 (by rw [hnow]; rfl)
      omega

/-- **The schedule.**  From every table that meets `LoadMeets`, along every run whose steps
meet `Meets`: one global event is pending for each map and difficulty with a reset period,
warnings and reset take turns, a cancellation takes only events of its instance, every
`Update` ends, and has then reset exactly the instances whose events were due. -/
theorem schedule_along (cfg : Config) (now : ℤ) (rows : List Row) (resets : List (Key × ℤ))
    (hload : LoadMeets cfg rows) (ops : List Op)
    (hops : Along (step cfg) (Meets cfg) (Manager.loadResetTimes cfg now rows resets) ops) :
    Along (step cfg) (Sound cfg) (Manager.loadResetTimes cfg now rows resets) ops ∧
      ∀ m, m = ops.foldl (step cfg) (Manager.loadResetTimes cfg now rows resets) →
        OnePending cfg m ∧ InTurn m ∧ (m.now = none → m.done = m.due) ∧
        ∀ n, m.work ≤ n → Along (step cfg) (Meets cfg) m (replicate n .iterate) →
          ((replicate n Op.iterate).foldl (step cfg) m).now = none := by
  have hcfg : ∀ key, (cfg.period key).isSome = true →
      (cfg.period key).isSome ∧ cfg.instanceable key.map = true :=
    fun key hkey => ⟨hkey, hload.instanceable key hkey⟩
  have hstart := ready_load hload now resets
  refine ⟨Along.of_invariant (fun _ _ h hm => h.step hcfg hm)
    (fun _ _ h hm => h.sound (fun _ hk => hk) _ hm) hstart hops, ?_⟩
  rintro m rfl
  have hend : Ready cfg (fun key => (cfg.period key).isSome = true)
      (ops.foldl (step cfg) (Manager.loadResetTimes cfg now rows resets)) :=
    Along.invariant_foldl (I := Ready cfg fun key => (cfg.period key).isSome = true)
      (fun _ _ h hm => h.step hcfg hm) hstart hops
  obtain ⟨hpending, hturn, hdone, -⟩ := hend.sound (fun _ hk => hk) (.update 0) trivial
  exact ⟨hpending, hturn, hdone, fun n hn halong => update_ends hcfg n _ hend hn halong⟩

/-- A raid map that is reset every day at four, and a dungeon. -/
def oneRaid : Config where
  instanceable _ := true
  periods := [(⟨249, 0⟩, 86400)]
  distinct := by decide
  diff := 14400

/-- Instance `7` of the dungeon is stored; the event of instance `8` comes and goes, and an
update gives the first warning for the raid and is over. -/
theorem schedule_along_oneRaid :
    let m := Manager.loadResetTimes oneRaid 100000 [⟨7, ⟨33, 0⟩, 500000⟩] []
    let ops : List Op := [.schedule 600000 ⟨33, 0⟩ 8, .cancel 600000 ⟨33, 0⟩ 8, .update 183700,
      .iterate, .iterate]
    Along (step oneRaid) (Sound oneRaid) m ops := by
  intro m ops
  refine (schedule_along oneRaid 100000 [⟨7, ⟨33, 0⟩, 500000⟩] [] ⟨?_, ?_, ?_, ?_⟩ ops ?_).1
  · decide
  · decide
  · decide
  · exact fun _ _ => rfl
  refine ⟨fun _ => by decide, fun _ => by decide, trivial, ?_, ?_, trivial⟩
  all_goals
    rintro now ⟨⟩ x ⟨⟩ _ h4
    exact absurd h4 (by decide)

/-- **Ids are taken for others.**  The event of instance `65541` resets instance `5`, and
cancelling the event of instance `65536` erases the global event of a raid. -/
theorem schedule_confuses_ids :
    let m := Manager.loadResetTimes oneRaid 100000 [] []
    let reset := [Op.schedule 150000 ⟨33, 0⟩ 65541, .update 150001, .iterate, .iterate].foldl
      (step oneRaid) m
    (reset.now = none ∧ reset.due = [(33, 65541)] ∧ reset.done = [(33, 5)]) ∧
      m.queue.length = 1 ∧ (step oneRaid m (.cancel 150000 ⟨33, 0⟩ 65536)).queue = [] ∧
      ¬ OnePending oneRaid (step oneRaid m (.cancel 150000 ⟨33, 0⟩ 65536)) := by
  refine ⟨by decide, by decide, by decide, fun h => ?_⟩
  obtain ⟨x, hx, -⟩ := h ⟨249, 0⟩ (by decide)
  cases hx

end ZerosCore.InstanceSaveManager
