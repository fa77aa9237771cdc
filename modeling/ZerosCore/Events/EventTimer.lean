/-
# The timer of the game events

`src/server/game/Events/GameEventMgr.cpp`: `CheckOneGameEvent` says whether an event runs now,
`NextCheck` how long nothing changes, and `Update` starts and stops the events and asks to be
called again when the first of them changes.

A normal event runs behind its start and before its end, in the first `length` minutes of each
`occurence` minutes.  `CheckOneGameEvent` has it stopped at the start itself, where `NextCheck` has
it running and answers with the end of the window.  `update_right_iff` says that an update at the
start of an event, unless some event changes within a second, is the only one that lets a change
pass.

The clock does not move during an update.  `mGameEvent` is a function of the id; what `ApplyNewEvent`
and `UnApplyEvent` do is in `GameEvents.lean`.
-/

import Mathlib.Data.Finset.Erase
import Mathlib.Data.Finset.Lattice.Lemmas
import Mathlib.Data.Rat.Floor

namespace ZerosCore.EventTimer

open List

inductive GameEventState where
  | normal
  | worldInactive
  | worldConditions
  | worldNextphase
  | worldFinished
  | internal
  deriving DecidableEq

structure GameEventFinishCondition where
  reqNum : ℚ
  done : ℚ

/-- `GameEventData` with the values of its constructor; `length` and `occurence` are in minutes. -/
structure GameEventData where
  start : ℤ := 1
  endTime : ℤ := 0
  nextstart : ℤ := 0
  occurence : UInt32 := 0
  length : UInt32 := 0
  state : GameEventState := .normal
  conditions : List GameEventFinishCondition := []
  prerequisiteEvents : List ℕ := []

structure GameEventMgr where
  size : ℕ
  mGameEvent : ℕ → GameEventData
  activeEvents : Finset ℕ

def maxGeCheckDelay : ℕ := 86400

/-- The cast to `uint32`. -/
def u32 (x : ℤ) : ℕ := (x % 2 ^ 32).toNat

namespace GameEventData

/-- `occurence * MINUTE` in `uint32` -/
def period (e : GameEventData) : ℤ := (e.occurence * 60).toNat

/-- `length * MINUTE` in `uint32` -/
def window (e : GameEventData) : ℤ := (e.length * 60).toNat

end GameEventData

/-! ### One event -/

/-- `CheckOneGameEvent`, `none` where it divides by zero. -/
def checkOneGameEvent (mGameEvent : ℕ → GameEventData) (currenttime : ℤ) (entry : ℕ) :
    Option Bool :=
  let e := mGameEvent entry
  match e.state with
  | .normal =>
    if e.start < currenttime ∧ currenttime < e.endTime then
      if e.period = 0 then none
      else some (decide ((currenttime - e.start) % e.period < e.window))
    else some false
  | .worldConditions | .worldNextphase => some true
  | .worldFinished | .internal => some false
  | .worldInactive =>
    if e.prerequisiteEvents.any fun itr =>
        ((mGameEvent itr).state ≠ .worldNextphase ∧ (mGameEvent itr).state ≠ .worldFinished) ∨
          (mGameEvent itr).nextstart > currenttime
    then some false
    else some !e.prerequisiteEvents.isEmpty

/-- `NextCheck`, `none` where it divides by zero. -/
def nextCheck (e : GameEventData) (currenttime : ℤ) : Option ℕ :=
  if (e.state = .worldNextphase ∨ e.state = .worldFinished) ∧ e.nextstart ≥ currenttime then
    some (u32 (e.nextstart - currenttime))
  else if e.state = .worldConditions then
    some (if e.length ≠ 0 then (e.length * 60).toNat else maxGeCheckDelay)
  else if currenttime > e.endTime then some maxGeCheckDelay
  else if e.start > currenttime then some (u32 (e.start - currenttime))
  else if e.period = 0 then none
  else
    let phase := (currenttime - e.start) % e.period
    let delay := u32 (if phase < e.window then e.window - phase else e.period - phase)
    if e.endTime < currenttime + delay then some (u32 (e.endTime - currenttime)) else some delay

/-- `CheckOneGameEventConditions` on the data of the event, with what it returns. -/
def checkOneGameEventConditions (e : GameEventData) (currenttime : ℤ) : GameEventData × Bool :=
  if e.conditions.any fun c => decide (c.done < c.reqNum) then (e, false)
  else ({ e with
    state := .worldNextphase
    nextstart := if e.nextstart = 0 then currenttime + e.window else e.nextstart }, true)

/-! ### The update -/

namespace GameEventMgr

def setEvent (m : GameEventMgr) (itr : ℕ) (e : GameEventData) : GameEventMgr :=
  { m with mGameEvent := Function.update m.mGameEvent itr e }

/-- `StartEvent` without `overwrite`, with what it returns. -/
def startEvent (m : GameEventMgr) (currenttime : ℤ) (eventId : ℕ) : GameEventMgr × Bool :=
  let data := m.mGameEvent eventId
  let started := { m with activeEvents := insert eventId m.activeEvents }
  if data.state = .normal ∨ data.state = .internal then (started, false)
  else
    let data :=
      if data.state = .worldInactive then { data with state := .worldConditions } else data
    let (data, conditionsMet) := checkOneGameEventConditions data currenttime
    (started.setEvent eventId data, conditionsMet)

/-- `StopEvent` without `overwrite`. -/
def stopEvent (m : GameEventMgr) (eventId : ℕ) : GameEventMgr :=
  let data := m.mGameEvent eventId
  let stopped := { m with activeEvents := m.activeEvents.erase eventId }
  if data.state = .normal ∨ data.state = .internal ∨ data.state = .worldFinished then stopped
  else
    stopped.setEvent eventId { data with
      nextstart := 0
      state := .worldInactive
      conditions := data.conditions.map fun c => { c with done := 0 } }

end GameEventMgr

/-- The variables of the loop of `Update`. -/
structure Queues where
  mgr : GameEventMgr
  nextEventDelay : ℕ
  activate : List ℕ
  deactivate : List ℕ

/-- `calcDelay` and the comparison at the end of the loop. -/
def Queues.delayed (q : Queues) (currenttime : ℤ) (itr : ℕ) : Option Queues :=
  match nextCheck (q.mgr.mGameEvent itr) currenttime with
  | none => none
  | some calcDelay => some { q with nextEventDelay := min calcDelay q.nextEventDelay }

/-- One round of the loop: the sets are queues, the ids come in order. -/
def Queues.round (q : Queues) (currenttime : ℤ) (itr : ℕ) : Option Queues :=
  let e := q.mgr.mGameEvent itr
  match checkOneGameEvent q.mgr.mGameEvent currenttime itr with
  | none => none
  | some true =>
    if e.state = .worldNextphase ∧ e.nextstart ≤ currenttime then
      let finished := q.mgr.setEvent itr { e with state := .worldFinished, nextstart := 0 }
      some { q with
        mgr := finished
        deactivate :=
          if itr ∈ q.mgr.activeEvents then q.deactivate ++ [itr] else q.deactivate }
    else
      let mgr :=
        if e.state = .worldConditions then
          q.mgr.setEvent itr (checkOneGameEventConditions e currenttime).1
        else q.mgr
      Queues.delayed { q with
        mgr
        activate := if itr ∈ q.mgr.activeEvents then q.activate else q.activate ++ [itr] }
        currenttime itr
  | some false =>
    Queues.delayed { q with
      deactivate := if itr ∈ q.mgr.activeEvents then q.deactivate ++ [itr] else q.deactivate }
      currenttime itr

/-- Starting the queue, which asks for an update in a second if an event is completed. -/
def startAll (currenttime : ℤ) (activate : List ℕ) (started : GameEventMgr × ℕ) :
    GameEventMgr × ℕ :=
  activate.foldl (fun (mgr, nextEventDelay) itr =>
    let (mgr, completed) := mgr.startEvent currenttime itr
    (mgr, if completed then 0 else nextEventDelay)) started

/-- `Update`, with the milliseconds that it returns. -/
def update (m : GameEventMgr) (currenttime : ℤ) : Option (GameEventMgr × ℕ) :=
  match (List.range' 1 (m.size - 1)).foldlM (fun q itr => Queues.round q currenttime itr)
      ⟨m, maxGeCheckDelay, [], []⟩ with
  | none => none
  | some q =>
    let (mgr, nextEventDelay) := startAll currenttime q.activate (q.mgr, q.nextEventDelay)
    some (q.deactivate.foldl GameEventMgr.stopEvent mgr, (nextEventDelay + 1) * 1000 % 2 ^ 32)

/-! ### Schedules -/

variable {e : GameEventData} {m m' : GameEventMgr} {q q' : Queues} {t u : ℤ} {itr ret : ℕ}

/-- The schedule of a normal event covers the time. -/
def Covers (e : GameEventData) (t : ℤ) : Prop :=
  e.start < t ∧ t < e.endTime ∧ (t - e.start) % (e.occurence.toNat * 60) < (e.length.toNat * 60 : ℤ)

instance (e : GameEventData) (t : ℤ) : Decidable (Covers e t) := by
  unfold Covers
  infer_instance

def GameEventMgr.HasEvent (m : GameEventMgr) (itr : ℕ) : Prop := 1 ≤ itr ∧ itr < m.size

instance (m : GameEventMgr) (itr : ℕ) : Decidable (m.HasEvent itr) := by
  unfold GameEventMgr.HasEvent
  infer_instance

/-- A normal event with a positive length and an occurence that is not shorter, or an id that is
not in use. -/
def GameEventData.Regular (e : GameEventData) : Prop :=
  e = {} ∨ e.state = .normal ∧ 0 < e.length ∧ e.length ≤ e.occurence

/-- The seconds of an event between its start and its end are numbers of 32 bits. -/
def GameEventData.Fits (e : GameEventData) (t : ℤ) : Prop :=
  e.start ≤ t → t ≤ e.endTime → e.occurence.toNat * 60 < 2 ^ 32

/-- Behind the update the events that run are those whose schedules cover the time, and no schedule
changes its answer before the returned delay, without the added second, is over. -/
def UpdateRight (m : GameEventMgr) (t : ℤ) : Prop :=
  ∃ m' ret, update m t = some (m', ret) ∧ (∀ itr, itr ∈ m'.activeEvents ↔
      if m.HasEvent itr then Covers (m.mGameEvent itr) t else itr ∈ m.activeEvents) ∧
    ∀ u, t < u → u < t + (ret / 1000 - 1 : ℤ) → ∀ itr, m.HasEvent itr →
      (Covers (m.mGameEvent itr) u ↔ Covers (m.mGameEvent itr) t)

/-- The event starts now, and there is more than a second of it. -/
def Starts (e : GameEventData) (t : ℤ) : Prop := e.start = t ∧ t + 1 < e.endTime

/-- The event starts or ends, or an occurence of it does, within a second (or a start is so far off
that the seconds to it come out as `0` or `1` in 32 bits). -/
def Soon (e : GameEventData) (t : ℤ) : Prop :=
  t ≤ e.endTime ∧ (t < e.start ∧ (e.start - t) % 2 ^ 32 ≤ 1 ∨ e.start ≤ t ∧ (e.endTime ≤ t + 1 ∨
        (t - e.start) % (e.occurence.toNat * 60) = (e.length.toNat * 60 - 1 : ℤ) ∨
        (t - e.start) % (e.occurence.toNat * 60) = (e.occurence.toNat * 60 - 1 : ℤ)))

/-! ### Seconds -/

theorem phase_add {d p k : ℤ} (hk : 0 ≤ k) (hlt : d % p + k < p) (hp : 0 < p) :
    (d + k) % p = d % p + k := by
  have hnonneg := Int.emod_nonneg d hp.ne'
  rw [Int.add_emod, ← Int.add_emod_emod, ← Int.emod_add_emod, Int.emod_emod, Int.emod_emod]
  rw [Int.add_emod_emod]
  exact Int.emod_eq_of_lt (by omega) hlt

theorem u32_le {x : ℤ} (hx : 0 ≤ x) : (u32 x : ℤ) ≤ x := by
  unfold u32
  omega

theorem u32_of_lt {x : ℤ} (hx : 0 ≤ x) (hlt : x < 2 ^ 32) : (u32 x : ℤ) = x := by
  unfold u32
  omega

theorem seconds_toNat {n : UInt32} (h : n.toNat * 60 < 2 ^ 32) : (n * 60).toNat = n.toNat * 60 := by
  exact Nat.mod_eq_of_lt h

/-- What `Regular` and `Fits` say of the seconds of an event that has begun and has not ended. -/
structure Seconds (e : GameEventData) : Prop where
  period_eq : e.period = e.occurence.toNat * 60
  window_eq : e.window = e.length.toNat * 60
  window_pos : 0 < e.window
  window_le : e.window ≤ e.period
  period_lt : e.period < 2 ^ 32

theorem GameEventData.Regular.seconds (h : e.Regular) (hfits : e.Fits t) (hstart : e.start ≤ t)
    (hend : t ≤ e.endTime) : Seconds e := by
  rcases h with rfl | ⟨-, hpos, hle⟩
  · exact absurd (hstart.trans hend) (by decide)
  have hlt := hfits hstart hend
  have hpos' : 0 < e.length.toNat := hpos
  have hle' : e.length.toNat ≤ e.occurence.toNat := hle
  have hperiod : e.period = e.occurence.toNat * 60 := by
    unfold GameEventData.period
    rw [seconds_toNat hlt]
    omega
  have hwindow : e.window = e.length.toNat * 60 := by
    unfold GameEventData.window
    rw [seconds_toNat (by omega)]
    omega
  constructor <;> omega

/-! ### One event is right -/

theorem covers_iff (hs : Seconds e) :
    Covers e t ↔ e.start < t ∧ t < e.endTime ∧ (t - e.start) % e.period < e.window := by
  unfold Covers
  rw [hs.period_eq, hs.window_eq]

theorem not_covers_of_not (h : ¬(e.start < t ∧ t < e.endTime)) : ¬Covers e t :=
  fun hcov => h ⟨hcov.1, hcov.2.1⟩

/-- **`CheckOneGameEvent` follows the schedule.** -/
theorem checkOneGameEvent_eq {mGameEvent : ℕ → GameEventData}
    (hreg : (mGameEvent itr).Regular) (hfits : (mGameEvent itr).Fits t) :
    checkOneGameEvent mGameEvent t itr = some (decide (Covers (mGameEvent itr) t)) := by
  have hstate : (mGameEvent itr).state = .normal := by
    rcases hreg with h | h
    · rw [h]
    · exact h.1
  unfold checkOneGameEvent
  dsimp only
  rw [hstate]
  by_cases hrun : (mGameEvent itr).start < t ∧ t < (mGameEvent itr).endTime
  · have hs := hreg.seconds hfits hrun.1.le hrun.2.le
    have hpos := hs.window_pos
    have hle := hs.window_le
    rw [if_pos hrun, if_neg (by omega)]
    refine congrArg some (decide_eq_decide.mpr ?_)
    rw [covers_iff hs]
    exact ⟨fun h => ⟨hrun.1, hrun.2, h⟩, fun h => h.2.2⟩
  · rw [if_neg hrun, decide_eq_false (not_covers_of_not hrun)]

theorem nextCheck_running (hstate : e.state = .normal) (hs : Seconds e) (hstart : e.start ≤ t)
    (hend : t ≤ e.endTime) : ∃ d, nextCheck e t = some d ∧ (d : ℤ) = min (e.endTime - t)
        (if (t - e.start) % e.period < e.window then e.window - (t - e.start) % e.period
          else e.period - (t - e.start) % e.period) := by
  have hpos := hs.window_pos
  have hle := hs.window_le
  have hlt := hs.period_lt
  have hnonneg := Int.emod_nonneg (t - e.start) (show e.period ≠ 0 by omega)
  have hphase := Int.emod_lt_of_pos (t - e.start) (show 0 < e.period by omega)
  have hdelay : ∀ {x : ℤ}, 0 ≤ x → x ≤ e.period → (u32 x : ℤ) = x :=
    fun hx hxp => u32_of_lt hx (by omega)
  unfold nextCheck
  rw [if_neg (by simp [hstate]), if_neg (by simp [hstate]), if_neg (by omega), if_neg (by omega),
    if_neg (by omega)]
  dsimp only
  by_cases hwin : (t - e.start) % e.period < e.window
  · rw [if_pos hwin, hdelay (by omega) (by omega)]
    by_cases hcut : e.endTime < t + (e.window - (t - e.start) % e.period)
    · rw [if_pos hcut]
      exact ⟨_, rfl, by rw [hdelay (by omega) (by omega)]; omega⟩
    rw [if_neg hcut]
    exact ⟨_, rfl, by rw [hdelay (by omega) (by omega)]; omega⟩
  rw [if_neg hwin, hdelay (by omega) (by omega)]
  by_cases hcut : e.endTime < t + (e.period - (t - e.start) % e.period)
  · rw [if_pos hcut]
    exact ⟨_, rfl, by rw [hdelay (by omega) (by omega)]; omega⟩
  rw [if_neg hcut]
  exact ⟨_, rfl, by rw [hdelay (by omega) (by omega)]; omega⟩

theorem nextCheck_waiting (hstate : e.state = .normal) (hrun : ¬(e.start ≤ t ∧ t ≤ e.endTime)) :
    nextCheck e t = some (if t > e.endTime then maxGeCheckDelay else u32 (e.start - t)) := by
  unfold nextCheck
  rw [if_neg (by simp [hstate]), if_neg (by simp [hstate])]
  by_cases hend : t > e.endTime
  · rw [if_pos hend, if_pos hend]
  · rw [if_neg hend, if_neg hend, if_pos (by omega)]

theorem GameEventData.Regular.state_eq (h : e.Regular) : e.state = .normal := by
  rcases h with h | h
  · rw [h]
  · exact h.1

theorem nextCheck_isSome (hreg : e.Regular) (hfits : e.Fits t) : ∃ d, nextCheck e t = some d := by
  by_cases hrun : e.start ≤ t ∧ t ≤ e.endTime
  · obtain ⟨d, hd, -⟩ := nextCheck_running hreg.state_eq (hreg.seconds hfits hrun.1 hrun.2) hrun.1
      hrun.2
    exact ⟨d, hd⟩
  · exact ⟨_, nextCheck_waiting hreg.state_eq hrun⟩

/-- **The schedule does not change before the time of `NextCheck`**, unless the event starts
now. -/
theorem covers_steady (hreg : e.Regular) (hfits : e.Fits t) (hstart : ¬Starts e t) {d : ℕ}
    (hd : nextCheck e t = some d) (htu : t < u) (hu : u < t + d) : Covers e u ↔ Covers e t := by
  by_cases hrun : e.start ≤ t ∧ t ≤ e.endTime
  · have hs := hreg.seconds hfits hrun.1 hrun.2
    have hpos := hs.window_pos
    have hle := hs.window_le
    obtain ⟨d', hd', hmin⟩ := nextCheck_running hreg.state_eq hs hrun.1 hrun.2
    obtain rfl : d' = d := Option.some.inj (hd'.symm.trans hd)
    have hbegun : e.start < t := by
      unfold Starts at hstart
      omega
    have hadd : (u - e.start) % e.period = (t - e.start) % e.period + (u - t) := by
      have hsum : u - e.start = (t - e.start) + (u - t) := by omega
      rw [hsum]
      exact phase_add (by omega) (by split_ifs at hmin <;> omega) (by omega)
    rw [covers_iff hs, covers_iff hs, hadd]
    split_ifs at hmin <;> omega
  rw [nextCheck_waiting hreg.state_eq hrun] at hd
  have hd' := Option.some.inj hd
  have hnow : ¬Covers e t := not_covers_of_not (by omega)
  have hthen : ¬Covers e u := by
    refine not_covers_of_not ?_
    by_cases hend : t > e.endTime
    · omega
    rw [if_neg hend] at hd'
    have hcast := u32_le (show 0 ≤ e.start - t by omega)
    omega
  exact ⟨fun h => absurd h hthen, fun h => absurd h hnow⟩

theorem starts_changes (hreg : e.Regular) (hfits : e.Fits t) (h : Starts e t) :
    ¬Covers e t ∧ Covers e (t + 1) := by
  obtain ⟨hstart, hend⟩ := h
  have hs := hreg.seconds hfits hstart.le (by omega)
  have hpos := hs.window_pos
  have hle := hs.window_le
  have hsixty := hs.window_eq
  refine ⟨fun hcov => absurd hcov.1 (by omega), ?_⟩
  rw [covers_iff hs, show t + 1 - e.start = 1 by omega, Int.emod_eq_of_lt (by decide) (by omega)]
  omega

/-- **`NextCheck` is at most a second** exactly where something happens soon. -/
theorem nextCheck_le_one (hreg : e.Regular) (hfits : e.Fits t) {d : ℕ}
    (hd : nextCheck e t = some d) : d ≤ 1 ↔ Soon e t := by
  unfold Soon
  by_cases hrun : e.start ≤ t ∧ t ≤ e.endTime
  · have hs := hreg.seconds hfits hrun.1 hrun.2
    have hpos := hs.window_pos
    have hle := hs.window_le
    have hphase := Int.emod_lt_of_pos (t - e.start) (show 0 < e.period by omega)
    obtain ⟨d', hd', hmin⟩ := nextCheck_running hreg.state_eq hs hrun.1 hrun.2
    obtain rfl : d' = d := Option.some.inj (hd'.symm.trans hd)
    rw [← hs.period_eq, ← hs.window_eq]
    split_ifs at hmin <;> omega
  rw [nextCheck_waiting hreg.state_eq hrun] at hd
  have hd' := Option.some.inj hd
  by_cases hend : t > e.endTime
  · rw [if_pos hend] at hd'
    unfold maxGeCheckDelay at hd'
    omega
  rw [if_neg hend] at hd'
  unfold u32 at hd'
  omega

/-! ### The loop -/

/-- What the loop over the ids does to its variables where the events are normal. -/
structure Looped (t : ℤ) (ids : List ℕ) (q q' : Queues) : Prop where
  mgr_eq : q'.mgr = q.mgr
  activate_iff : ∀ itr, itr ∈ q'.activate ↔ itr ∈ q.activate ∨
    itr ∈ ids ∧ Covers (q.mgr.mGameEvent itr) t ∧ itr ∉ q.mgr.activeEvents
  deactivate_iff : ∀ itr, itr ∈ q'.deactivate ↔ itr ∈ q.deactivate ∨
    itr ∈ ids ∧ ¬Covers (q.mgr.mGameEvent itr) t ∧ itr ∈ q.mgr.activeEvents
  delay_le : q'.nextEventDelay ≤ q.nextEventDelay
  delay_le_next : ∀ itr ∈ ids, ∀ d, nextCheck (q.mgr.mGameEvent itr) t = some d →
    q'.nextEventDelay ≤ d
  delay_eq : q'.nextEventDelay = q.nextEventDelay ∨
    ∃ itr ∈ ids, nextCheck (q.mgr.mGameEvent itr) t = some q'.nextEventDelay

theorem round_looped (hreg : (q.mgr.mGameEvent itr).Regular)
    (hfits : (q.mgr.mGameEvent itr).Fits t) :
    ∃ q', q.round t itr = some q' ∧ Looped t [itr] q q' := by
  obtain ⟨d, hd⟩ := nextCheck_isSome hreg hfits
  have hmin : min d q.nextEventDelay = q.nextEventDelay ∨ min d q.nextEventDelay = d := by omega
  have hstate := hreg.state_eq
  unfold Queues.round
  dsimp only
  rw [checkOneGameEvent_eq hreg hfits]
  by_cases hcov : Covers (q.mgr.mGameEvent itr) t
  · rw [decide_eq_true hcov]
    rw [if_neg (by simp [hstate]), if_neg (by simp [hstate])]
    unfold Queues.delayed
    rw [hd]
    refine ⟨_, rfl, rfl, fun i => ?_, fun i => ?_, min_le_right _ _, ?_, ?_⟩
    · by_cases hact : itr ∈ q.mgr.activeEvents
      · rw [if_pos hact, mem_singleton]
        refine ⟨.inl, fun h => h.resolve_right ?_⟩
        rintro ⟨rfl, -, hnot⟩
        exact hnot hact
      rw [if_neg hact, mem_append, mem_singleton]
      refine or_congr_right ⟨?_, fun h => h.1⟩
      rintro rfl
      exact ⟨rfl, hcov, hact⟩
    · rw [mem_singleton]
      refine ⟨.inl, fun h => h.resolve_right ?_⟩
      rintro ⟨rfl, hnot, -⟩
      exact hnot hcov
    · intro i hi d' hd'
      obtain rfl := mem_singleton.mp hi
      obtain rfl : d = d' := Option.some.inj (hd.symm.trans hd')
      exact min_le_left _ _
    · exact hmin.imp_right fun h => ⟨itr, mem_singleton_self itr, by rw [hd, h]⟩
  rw [decide_eq_false hcov]
  unfold Queues.delayed
  rw [hd]
  refine ⟨_, rfl, rfl, fun i => ?_, fun i => ?_, min_le_right _ _, ?_, ?_⟩
  · rw [mem_singleton]
    refine ⟨.inl, fun h => h.resolve_right ?_⟩
    rintro ⟨rfl, h, -⟩
    exact hcov h
  · by_cases hact : itr ∈ q.mgr.activeEvents
    · rw [if_pos hact, mem_append, mem_singleton]
      refine or_congr_right ⟨?_, fun h => h.1⟩
      rintro rfl
      exact ⟨rfl, hcov, hact⟩
    rw [if_neg hact, mem_singleton]
    refine ⟨.inl, fun h => h.resolve_right ?_⟩
    rintro ⟨rfl, -, h⟩
    exact hact h
  · intro i hi d' hd'
    obtain rfl := mem_singleton.mp hi
    obtain rfl : d = d' := Option.some.inj (hd.symm.trans hd')
    exact min_le_left _ _
  · exact hmin.imp_right fun h => ⟨itr, mem_singleton_self itr, by rw [hd, h]⟩

theorem Looped.cons {ids : List ℕ} {q1 : Queues} (h : Looped t [itr] q q1)
    (h' : Looped t ids q1 q') : Looped t (itr :: ids) q q' := by
  have hmgr := h.mgr_eq
  constructor
  · rw [h'.mgr_eq, hmgr]
  · intro i
    rw [h'.activate_iff, h.activate_iff, hmgr, mem_singleton, mem_cons, or_assoc, ← or_and_right]
  · intro i
    rw [h'.deactivate_iff, h.deactivate_iff, hmgr, mem_singleton, mem_cons, or_assoc,
      ← or_and_right]
  · exact h'.delay_le.trans h.delay_le
  · intro i hi d hd
    rcases mem_cons.mp hi with rfl | hi
    · exact h'.delay_le.trans (h.delay_le_next i (mem_singleton_self i) d hd)
    · exact h'.delay_le_next i hi d (by rw [hmgr]; exact hd)
  rcases h'.delay_eq with heq | ⟨i, hi, hd⟩
  · rcases h.delay_eq with heq' | ⟨i, hi, hd⟩
    · exact .inl (heq.trans heq')
    obtain rfl := mem_singleton.mp hi
    exact .inr ⟨i, mem_cons_self, by rw [heq, hd]⟩
  · exact .inr ⟨i, mem_cons_of_mem itr hi, by rw [← hmgr]; exact hd⟩

theorem loop_looped {ids : List ℕ} (hreg : ∀ itr ∈ ids, (q.mgr.mGameEvent itr).Regular)
    (hfits : ∀ itr ∈ ids, (q.mgr.mGameEvent itr).Fits t) :
    ∃ q', ids.foldlM (fun q itr => Queues.round q t itr) q = some q' ∧ Looped t ids q q' := by
  induction ids generalizing q with
  | nil => exact ⟨q, rfl, rfl, by simp, by simp, le_refl _, by simp, .inl rfl⟩
  | cons itr ids ih =>
    obtain ⟨q1, hround, hfirst⟩ :=
      round_looped (hreg itr mem_cons_self) (hfits itr mem_cons_self)
    have hmgr := hfirst.mgr_eq
    obtain ⟨q', hloop, hrest⟩ := ih (q := q1)
      (fun i hi => by rw [hmgr]; exact hreg i (mem_cons_of_mem itr hi))
      (fun i hi => by rw [hmgr]; exact hfits i (mem_cons_of_mem itr hi))
    refine ⟨q', ?_, hfirst.cons hrest⟩
    rw [foldlM_cons, hround]
    exact hloop

/-! ### Starting and stopping -/

theorem startAll_normal (t : ℤ) (l : List ℕ) (m : GameEventMgr) (d : ℕ)
    (hstate : ∀ itr ∈ l, (m.mGameEvent itr).state = .normal) :
    startAll t l (m, d) = ({ m with activeEvents := l.toFinset ∪ m.activeEvents }, d) := by
  induction l generalizing m with
  | nil => simp [startAll]
  | cons itr l ih =>
    have hfirst : m.startEvent t itr =
        ({ m with activeEvents := insert itr m.activeEvents }, false) := by
      exact if_pos (.inl (hstate itr mem_cons_self))
    have hrest := ih { m with activeEvents := insert itr m.activeEvents }
      fun i hi => hstate i (mem_cons_of_mem itr hi)
    unfold startAll at hrest ⊢
    rw [foldl_cons]
    dsimp only
    rw [hfirst]
    refine hrest.trans ?_
    rw [toFinset_cons, Finset.insert_union, Finset.union_insert]

theorem stopAll_normal (l : List ℕ) (m : GameEventMgr)
    (hstate : ∀ itr ∈ l, (m.mGameEvent itr).state = .normal) (itr : ℕ) :
    itr ∈ (l.foldl GameEventMgr.stopEvent m).activeEvents ↔ itr ∈ m.activeEvents ∧ itr ∉ l := by
  induction l generalizing m with
  | nil => simp
  | cons a l ih =>
    have hfirst : m.stopEvent a = { m with activeEvents := m.activeEvents.erase a } := by
      exact if_pos (.inl (hstate a mem_cons_self))
    have hrest := ih { m with activeEvents := m.activeEvents.erase a }
      fun i hi => hstate i (mem_cons_of_mem a hi)
    rw [foldl_cons, hfirst, hrest, Finset.mem_erase, mem_cons, not_or]
    exact ⟨fun h => ⟨h.1.2, h.1.1, h.2⟩, fun h => ⟨⟨h.2.1, h.1⟩, h.2.2⟩⟩

/-- What `Update` returns where the events are normal: the seconds to the first next check, or a
day. -/
structure Updated (m : GameEventMgr) (t : ℤ) (d : ℕ) : Prop where
  le_day : d ≤ maxGeCheckDelay
  le_next : ∀ itr, m.HasEvent itr → ∀ d', nextCheck (m.mGameEvent itr) t = some d' → d ≤ d'
  eq_next : d = maxGeCheckDelay ∨ ∃ itr, m.HasEvent itr ∧ nextCheck (m.mGameEvent itr) t = some d

theorem mem_ids : itr ∈ range' 1 (m.size - 1) ↔ m.HasEvent itr := by
  unfold GameEventMgr.HasEvent
  rw [mem_range'_1]
  omega

/-- **The events that run behind the update are those that their schedules say.** -/
theorem update_normal (hreg : ∀ itr, m.HasEvent itr → (m.mGameEvent itr).Regular)
    (hfits : ∀ itr, m.HasEvent itr → (m.mGameEvent itr).Fits t) :
    ∃ m' d, update m t = some (m', (d + 1) * 1000) ∧ Updated m t d ∧ ∀ itr, itr ∈ m'.activeEvents ↔
        if m.HasEvent itr then Covers (m.mGameEvent itr) t else itr ∈ m.activeEvents := by
  obtain ⟨q, hloop, hq⟩ := @loop_looped ⟨m, maxGeCheckDelay, [], []⟩ t
    (range' 1 (m.size - 1)) (fun itr h => hreg itr (mem_ids.mp h))
    (fun itr h => hfits itr (mem_ids.mp h))
  have hmgr : q.mgr = m := hq.mgr_eq
  have hactivate : ∀ itr, itr ∈ q.activate ↔
      m.HasEvent itr ∧ Covers (m.mGameEvent itr) t ∧ itr ∉ m.activeEvents := by
    intro itr
    have h := hq.activate_iff itr
    rwa [mem_ids, or_iff_right not_mem_nil] at h
  have hdeactivate : ∀ itr, itr ∈ q.deactivate ↔
      m.HasEvent itr ∧ ¬Covers (m.mGameEvent itr) t ∧ itr ∈ m.activeEvents := by
    intro itr
    have h := hq.deactivate_iff itr
    rwa [mem_ids, or_iff_right not_mem_nil] at h
  have hstart := startAll_normal t q.activate m q.nextEventDelay
    fun itr h => (hreg itr ((hactivate itr).mp h).1).state_eq
  have hday : q.nextEventDelay ≤ maxGeCheckDelay := hq.delay_le
  have hmod : (q.nextEventDelay + 1) * 1000 % 2 ^ 32 = (q.nextEventDelay + 1) * 1000 := by
    unfold maxGeCheckDelay at hday
    omega
  refine ⟨q.deactivate.foldl GameEventMgr.stopEvent
    { m with activeEvents := q.activate.toFinset ∪ m.activeEvents }, q.nextEventDelay, ?_, ?_, ?_⟩
  · unfold update
    rw [hloop]
    dsimp only
    rw [hmgr, hstart, hmod]
  · refine ⟨hday, fun itr h d hd => hq.delay_le_next itr (mem_ids.mpr h) d hd, ?_⟩
    exact hq.delay_eq.imp_right fun ⟨itr, h, hd⟩ => ⟨itr, mem_ids.mp h, hd⟩
  intro itr
  have hstop := stopAll_normal q.deactivate
    { m with activeEvents := q.activate.toFinset ∪ m.activeEvents }
    (fun i hi => (hreg i ((hdeactivate i).mp hi).1).state_eq) itr
  rw [hstop, Finset.mem_union, mem_toFinset, hactivate, hdeactivate]
  by_cases hevent : m.HasEvent itr
  · rw [if_pos hevent]
    by_cases hcov : Covers (m.mGameEvent itr) t
    · simp only [hevent, hcov, not_true_eq_false, false_and, and_false, not_false_eq_true,
        and_true, true_and, iff_true]
      exact (em _).symm
    · simp [hevent, hcov]
  rw [if_neg hevent]
  simp [hevent]

/-! ### The update is right -/

/-- **The update lets no change of a normal event pass if and only if no event starts now**, or some
event changes within a second anyway. -/
theorem update_right_iff (m : GameEventMgr) (t : ℤ)
    (hreg : ∀ itr, m.HasEvent itr → (m.mGameEvent itr).Regular)
    (hfits : ∀ itr, m.HasEvent itr → (m.mGameEvent itr).Fits t) :
    UpdateRight m t ↔ (∀ itr, m.HasEvent itr → ¬Starts (m.mGameEvent itr) t) ∨
      ∃ itr, m.HasEvent itr ∧ Soon (m.mGameEvent itr) t := by
  obtain ⟨m1, d, hupdate, hd, hactive⟩ := update_normal hreg hfits
  constructor
  · rintro ⟨m', ret, hupdate', -, hsteady⟩
    obtain ⟨rfl, rfl⟩ := Prod.mk.inj (Option.some.inj (hupdate'.symm.trans hupdate))
    by_cases hone : d ≤ 1
    · -- the delay is that of an event with something to do
      rcases hd.eq_next with rfl | ⟨itr, hevent, hnext⟩
      · exact absurd hone (by decide)
      exact .inr ⟨itr, hevent,
        (nextCheck_le_one (hreg itr hevent) (hfits itr hevent) hnext).mp hone⟩
    refine .inl fun itr hevent hstarts => ?_
    obtain ⟨hnow, hthen⟩ := starts_changes (hreg itr hevent) (hfits itr hevent) hstarts
    exact hnow ((hsteady (t + 1) (by omega) (by omega) itr hevent).mp hthen)
  intro hcond
  refine ⟨m1, (d + 1) * 1000, hupdate, hactive, fun u htu hu itr hevent => ?_⟩
  rcases hcond with hnone | ⟨i, hi, hsoon⟩
  · obtain ⟨d', hnext⟩ := nextCheck_isSome (hreg itr hevent) (hfits itr hevent)
    have hle := hd.le_next itr hevent d' hnext
    exact covers_steady (hreg itr hevent) (hfits itr hevent) (hnone itr hevent) hnext htu
      (by omega)
  obtain ⟨d', hnext⟩ := nextCheck_isSome (hreg i hi) (hfits i hi)
  have hle := hd.le_next i hi d' hnext
  have hone := (nextCheck_le_one (hreg i hi) (hfits i hi) hnext).mpr hsoon
  omega

/-- An event of an hour that comes every two hours, from `100` on, and no other. -/
def twoHourly : GameEventMgr where
  size := 2
  mGameEvent itr :=
    if itr = 1 then { start := 100, endTime := 1000000, occurence := 120, length := 60 } else {}
  activeEvents := ∅

theorem twoHourly_timely : (∀ itr, twoHourly.HasEvent itr → (twoHourly.mGameEvent itr).Regular) ∧
      (∀ itr, twoHourly.HasEvent itr → (twoHourly.mGameEvent itr).Fits 101) ∧
      UpdateRight twoHourly 101 := by
  have hone : ∀ itr, twoHourly.HasEvent itr → itr = 1 := by
    rintro itr ⟨hle, hlt⟩
    have hsize : itr < 2 := hlt
    omega
  have hreg : ∀ itr, twoHourly.HasEvent itr → (twoHourly.mGameEvent itr).Regular := by
    intro itr h
    obtain rfl := hone itr h
    exact .inr ⟨rfl, by decide, by decide⟩
  have hfits : ∀ itr, twoHourly.HasEvent itr → (twoHourly.mGameEvent itr).Fits 101 := by
    intro itr h
    obtain rfl := hone itr h
    exact fun _ _ => by decide
  refine ⟨hreg, hfits, (update_right_iff twoHourly 101 hreg hfits).mpr (.inl fun itr h => ?_)⟩
  obtain rfl := hone itr h
  exact fun hstarts => absurd hstarts.1 (by decide)

/-- At its start the event is left for an hour, and the next update comes when it is over. -/
theorem first_hour_skipped :
    (update twoHourly 100).map (fun r => (r.1.activeEvents, r.2)) = some (∅, 3601000) ∧
      Covers (twoHourly.mGameEvent 1) 101 ∧ ¬UpdateRight twoHourly 100 := by
  have hupdate : (update twoHourly 100).map (fun r => (r.1.activeEvents, r.2)) =
      some (∅, 3601000) := by decide
  refine ⟨hupdate, by decide, ?_⟩
  rintro ⟨m', ret, h, -, hsteady⟩
  rw [h] at hupdate
  obtain ⟨-, rfl⟩ := Prod.mk.inj (Option.some.inj hupdate)
  have hcov := (hsteady 101 (by decide) (by decide) 1 (by decide)).mp (by decide)
  exact absurd hcov (by decide)

end ZerosCore.EventTimer
