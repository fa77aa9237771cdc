/-
# The event processor

`src/server/shared/Utilities/EventProcessor.cpp` and `EventProcessor.h`.

Events wait in a multimap by the time they are scheduled for.  `Update` takes what is
due from its front and executes it, or aborts it if it is marked; `KillAllEvents` walks
over the whole map and aborts everything.  Callbacks add events while these loops run,
so a call is not one step here: `Processor.control` says which loop is running, and each
callback is a step of its own that brings along the `AddEvent` calls made in it.

`m_aborting` is set to prevent insertions and read nowhere, so an event added by an
`Abort` callback of a forced kill before the place the loop has reached is thrown away
unseen; and an event that is not deletable is aborted by a kill that keeps it, and once
more when it is deleted.  `Meets` says what has to be promised so that neither happens.
-/

import Mathlib.Data.List.Count
import Mathlib.Tactic.Linarith
import ZerosCore.Lib.Multimap
import ZerosCore.Lib.Run

namespace ZerosCore.EventProcessor

open Lib

/-- A `BasicEvent`, the fields the processor uses. -/
structure BasicEvent where
  toAbort : Bool := false
  addTime : ℕ := 0
  execTime : ℕ := 0

/-- An element of `m_events`: the time, the event, and the number of the insertion. -/
structure Entry where
  time : ℕ
  event : ℕ
  seq : ℕ
  deriving DecidableEq

/-- The arguments of `AddEvent`. -/
structure Add where
  event : ℕ
  time : ℕ
  setAddTime : Bool := true

/-- A call the processor makes, with what `Execute` returns. -/
inductive Call where
  | execute (event : ℕ) (done : Bool)
  | abort (event : ℕ)
  deriving DecidableEq

/-- The loop that is running. -/
inductive Control where
  | idle
  | updating (dt : ℕ)
  | killing (force : Bool)
  deriving DecidableEq

/-- `EventProcessor`, with the events by their address.  `m_events` is `events ++ rest`:
`rest` is empty but in `KillAllEvents`, where it begins at the iterator `i`. -/
structure Processor where
  time : ℕ := 0
  events : List Entry := []
  rest : List Entry := []
  aborting : Bool := false
  object : ℕ → BasicEvent := fun _ => {}
  control : Control := .idle
  /-- The number of insertions so far. -/
  seq : ℕ := 0
  /-- The events that were ever added. -/
  added : List ℕ := []
  /-- The calls so far, the latest first. -/
  calls : List Call := []
  /-- What this `Update` has taken so far, the latest first. -/
  ran : List Entry := []

namespace Processor

variable (p : Processor)

/-- `m_events`. -/
def queue : List Entry := p.events ++ p.rest

/-- `m_events.insert`.  An iterator stays where it is: the new element is before or behind
it. -/
def place (entry : Entry) : Processor :=
  match p.rest with
  | [] => { p with events := Multimap.insert Entry.time entry p.events }
  | y :: _ =>
    if y.time ≤ entry.time then { p with rest := Multimap.insert Entry.time entry p.rest }
    else { p with events := Multimap.insert Entry.time entry p.events }

def addEvent (a : Add) : Processor :=
  let old := p.object a.event
  let addTime := if a.setAddTime then p.time else old.addTime
  { p with
    object := Function.update p.object a.event { old with addTime, execTime := a.time }
    seq := p.seq + 1
    added := a.event :: p.added }.place ⟨a.time, a.event, p.seq⟩

/-- The calls of `AddEvent` in a callback. -/
def addEvents (adds : List Add) : Processor := adds.foldl addEvent p

/-- `to_Abort = true`. -/
def mark (event : ℕ) : Processor :=
  { p with object := Function.update p.object event { p.object event with toAbort := true } }

/-- The condition of the loop of `Update`. -/
def whileDue : Processor :=
  match p.events with
  | [] => { p with control := .idle }
  | x :: _ => if x.time ≤ p.time then p else { p with control := .idle }

/-- `Update`, up to the first event. -/
def update (dt : ℕ) : Processor :=
  { p with time := (p.time + dt) % 2 ^ 64, control := .updating dt, ran := [] }.whileDue

/-- The body of the loop of `Update`: the front is taken, and executed or aborted. -/
def updateBody (adds : List Add) (done : Bool) : Processor :=
  match p.events with
  | [] => p
  | x :: events =>
    let p := { p with events, ran := x :: p.ran }
    if !(p.object x.event).toAbort then
      ({ p with calls := .execute x.event done :: p.calls }.addEvents adds).whileDue
    else ({ p with calls := .abort x.event :: p.calls }.addEvents adds).whileDue

/-- The end of the loop of `KillAllEvents`, and `clear` in the force case. -/
def whileLeft (force : Bool) : Processor :=
  match p.rest with
  | [] => { p with control := .idle, events := if force then [] else p.events }
  | _ :: _ => p

/-- `KillAllEvents`, up to the first event. -/
def killAllEvents (force : Bool) : Processor :=
  { p with aborting := true, control := .killing force, events := [], rest := p.events }.whileLeft
    force

/-- The body of the loop of `KillAllEvents`: the event is marked and aborted, and erased
if it may be deleted; in the force case it stays in the map until `clear`. -/
def killBody (force : Bool) (adds : List Add) (deletable : Bool) : Processor :=
  match p.rest with
  | [] => p
  | x :: rest =>
    let p := { p.mark x.event with
      events := p.events ++ [x], rest, calls := .abort x.event :: p.calls }
    let p := p.addEvents adds
    (if !force && deletable then { p with events := p.events.filter fun y => y ≠ x }
      else p).whileLeft force

end Processor

/-- What can happen next: a call from outside, an event marked by its owner, or the
callback that is due, with the events it adds and what it (or `IsDeletable`) returns. -/
inductive Op where
  | addEvent (a : Add)
  | update (dt : ℕ)
  | killAllEvents (force : Bool)
  | mark (event : ℕ)
  | callback (adds : List Add) (result : Bool)

/-- One step; a loop that is running is not entered again. -/
def step (p : Processor) : Op → Processor
  | .addEvent a => if p.control = .idle then p.addEvent a else p
  | .update dt => if p.control = .idle then p.update dt else p
  | .killAllEvents force => if p.control = .idle then p.killAllEvents force else p
  | .mark event => p.mark event
  | .callback adds result =>
    match p.control with
    | .idle => p
    | .updating _ => p.updateBody adds result
    | .killing force => p.killBody force adds result

/-! ### What is promised, and what is proved -/

def Call.ends (event : ℕ) : Call → Bool
  | .execute e done => e = event && done
  | .abort e => e = event

def Processor.ended (p : Processor) (event : ℕ) : ℕ := p.calls.countP (Call.ends event)

def Processor.Queued (p : Processor) (event : ℕ) : Prop := ∃ x ∈ p.queue, x.event = event

/-- A callback adds each event once, and only new ones or the event itself. -/
def Proper (p : Processor) (self : Option ℕ) (adds : List Add) : Prop :=
  (adds.map Add.event).Nodup ∧ ∀ a ∈ adds, a.event ∉ p.added ∨ self = some a.event

instance (p : Processor) (self : Option ℕ) (adds : List Add) : Decidable (Proper p self adds) :=
  inferInstanceAs (Decidable (_ ∧ _))

/-- **What is promised of a step.**  Only new events are added, but for an `Execute` that
returns `false`, which adds its own event again; an event that was aborted already is not
reached again; and what an `Abort` callback of a forced kill adds comes behind the next
event of the walk. -/
def Meets (p : Processor) : Op → Prop
  | .addEvent a => p.control = .idle → a.event ∉ p.added
  | .callback adds result =>
    match p.control with
    | .idle => True
    | .updating _ => ∀ x ∈ p.events.head?,
        if (p.object x.event).toAbort then Proper p none adds ∧ Call.abort x.event ∉ p.calls
        else Proper p (if result then none else some x.event) adds ∧
          (result = false → x.event ∈ adds.map Add.event)
    | .killing force => Proper p none adds ∧ (∀ x ∈ p.rest.head?, Call.abort x.event ∉ p.calls) ∧
        (force = true → ∀ a ∈ adds, ∃ y ∈ p.rest.tail.head?, y.time ≤ a.time)
  | _ => True

/-- The order in which events are to run. -/
def Entry.Precedes (x y : Entry) : Prop := x.time < y.time ∨ x.time = y.time ∧ x.seq < y.seq

def Processor.executes (p : Processor) : Op → Option Entry
  | .callback _ _ =>
    match p.control with
    | .updating _ => p.events.head?.filter fun x => !(p.object x.event).toAbort
    | _ => none
  | _ => none

/-- **Every event comes to one end**: none is ended twice, and one that is no longer queued
was ended. -/
def Processor.OneEnd (p : Processor) : Prop :=
  ∀ e ∈ p.added, p.ended e ≤ 1 ∧ (¬ p.Queued e → p.ended e = 1)

/-- **What is proved of a step.**  Every event comes to one end, and one that is executed
is due, was neither ended nor aborted before, and is the first of the queue. -/
def Sound (p : Processor) (op : Op) : Prop :=
  p.OneEnd ∧ ∀ x, p.executes op = some x → x.time ≤ p.time ∧ p.ended x.event = 0 ∧
    Call.abort x.event ∉ p.calls ∧ ∀ y ∈ p.queue, y = x ∨ x.Precedes y

/-- What an `Update` callback adds is not scheduled before the event itself. -/
def Forward (p : Processor) : Op → Prop
  | .callback adds _ =>
    match p.control with
    | .updating _ => ∀ x ∈ p.events.head?, ∀ a ∈ adds, x.time ≤ a.time
    | _ => True
  | _ => True

/-- What an `Update` has taken, it has taken in order. -/
def Ordered (p : Processor) (_ : Op) : Prop := p.ran.reverse.Pairwise Entry.Precedes

end ZerosCore.EventProcessor
