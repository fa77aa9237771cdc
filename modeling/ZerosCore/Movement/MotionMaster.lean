/-
# The stack of movement generators

Model of `src/server/game/Movement/MotionMaster.h` and `MotionMaster.cpp`: `Initialize`,
`Mutate`, `Clear`, `MovementExpired` and `UpdateMotion` on the three slots of a unit's
`MotionMaster`, with the direct and the delayed deletion of generators.

A generator's `Initialize`, `Reset`, `Finalize` and `Update` are code of their own, and may call
the same `MotionMaster` again.  So the model runs up to the next call of a generator and stops
there: what is left of the function that made the call is a `Frame`, and the generator's code is
whatever comes in until `ret` gives control back to the frame.  The frames are the call stack.

An index outside of `Impl` or `_needInit`, or a call through a null generator, has no next
state: the functions give `none` there.  `_top + 1` is kept as `size`.
-/

import Mathlib.Data.Nat.Notation
import Mathlib.Logic.Function.Basic

namespace ZerosCore.Motion

/-- A generator: the static `si_idleMovement`, or one made with `new`. -/
inductive MovementGenerator where
  | idle
  | made (id : ℕ)
deriving DecidableEq

inductive MovementSlot where
  | idle
  | active
  | controlled
deriving DecidableEq

def MovementSlot.index : MovementSlot → ℕ
  | .idle => 0
  | .active => 1
  | .controlled => 2

def maxMotionSlot : ℕ := 3

structure MotionMaster where
  impl : ℕ → Option MovementGenerator
  needInit : ℕ → Bool
  /-- `size()`, which is `_top + 1` -/
  size : ℕ
  /-- `MMCF_UPDATE` of `_cleanFlag` -/
  update : Bool
  /-- `MMCF_RESET` of `_cleanFlag` -/
  reset : Bool
  /-- `_expList`: the generators whose deletion is delayed, without those deleted already -/
  expList : List ℕ
  /-- how many generators were made with `new` -/
  made : ℕ
  /-- the generators whose `Finalize` was called, newest first -/
  finalized : List ℕ

/-- `MotionMaster::MotionMaster` -/
def MotionMaster.new : MotionMaster :=
  ⟨fun _ => none, fun _ => true, 0, false, false, [], 0, []⟩

/-- What is left of a function when a generator it called returns. -/
inductive Code where
  | mutate (m : MovementGenerator) (slot : MovementSlot)
  | doInitialize (isStatic : Bool)
  | clean (reset : Bool)
  | expire (reset : Bool)
  | initTop
  | nothing
deriving DecidableEq

/-- What is left of `UpdateMotion` when a function it called returns. -/
inductive Then where
  | done
  | afterExpired
  | updateEnd
deriving DecidableEq

/-- A call of a generator that has not returned, with what comes after it. -/
inductive Frame where
  | code (k : Code) (next : Then)
  | update (g : MovementGenerator)
  | expList
deriving DecidableEq

/-- Where a function gets to: its end, or the call of a generator. -/
inductive Outcome (κ : Type) where
  | done (c : MotionMaster)
  | callback (c : MotionMaster) (k : κ)

namespace MotionMaster

variable (c : MotionMaster)

/-- The current top is an index of the arrays. -/
def InRange : Prop := 0 < c.size ∧ c.size ≤ maxMotionSlot

instance : Decidable c.InRange := inferInstanceAs (Decidable (_ ∧ _))

/-- `MotionMaster::top` -/
def top : Option (Option MovementGenerator) :=
  if c.InRange then some (c.impl (c.size - 1)) else none

/-- The scan `while (!top()) --_top`, from a top in range. -/
def scan (impl : ℕ → Option MovementGenerator) : ℕ → Option ℕ
  | 0 => none
  | n + 1 => if (impl n).isSome then some (n + 1) else scan impl n

/-- `MotionMaster::pop` -/
def pop : Option MotionMaster :=
  if c.InRange then
    let impl := Function.update c.impl (c.size - 1) none
    (scan impl c.size).map fun n => { c with impl := impl, size := n }
  else none

/-- `MotionMaster::DirectDelete`; `k` is left for after the generator's `Finalize`, and `go` is
what follows where there is none. -/
def directDelete (curr : MovementGenerator) (k : Code)
    (go : MotionMaster → Option (Outcome Code)) : Option (Outcome Code) :=
  match curr with
  | .idle => go c
  | .made id => some (.callback { c with finalized := id :: c.finalized } k)

/-- `MotionMaster::DelayedDelete` -/
def delayedDelete : MovementGenerator → MotionMaster
  | .idle => c
  | .made id => { c with expList := c.expList ++ [id] }

/-- The end of `MotionMaster::Mutate`: the new generator is put in its slot. -/
def install (m : MovementGenerator) (slot : MovementSlot) : Outcome Code :=
  let impl := Function.update c.impl slot.index (some m)
  if slot.index + 1 < c.size then
    .done { c with impl := impl, needInit := Function.update c.needInit slot.index true }
  else
    .callback { c with impl := impl, needInit := Function.update c.needInit slot.index false }
      .nothing

/-- `MotionMaster::Mutate` -/
def mutate (m : MovementGenerator) (slot : MovementSlot) : Option (Outcome Code) :=
  match c.impl slot.index with
  | some curr =>
    let c := { c with impl := Function.update c.impl slot.index none }
    if c.size = slot.index + 1 ∧ c.update then some ((c.delayedDelete curr).install m slot)
    else c.directDelete curr (.mutate m slot) fun c => some (c.install m slot)
  | none => some (install { c with size := max c.size (slot.index + 1) } m slot)

/-- A generator for `Mutate`: `si_idleMovement` or a new one. -/
def newGenerator (isStatic : Bool) : MovementGenerator × MotionMaster :=
  if isStatic then (.idle, c) else (.made c.made, { c with made := c.made + 1 })

/-- `Mutate` of a generator made for it -/
def mutateNew (isStatic : Bool) (slot : MovementSlot) : Option (Outcome Code) :=
  (c.newGenerator isStatic).2.mutate (c.newGenerator isStatic).1 slot

/-- `MotionMaster::Initialize`, with `InitDefault` at its end.  The fuel is the size, which
every round lowers. -/
def initializeLoop (isStatic : Bool) : ℕ → MotionMaster → Option (Outcome Code)
  | 0, c => c.mutateNew isStatic .idle
  | n + 1, c =>
    if 0 < c.size then
      c.top.bind fun curr => c.pop.bind fun c =>
        match curr with
        | some g => c.directDelete g (.doInitialize isStatic) (initializeLoop isStatic n)
        | none => initializeLoop isStatic n c
    else c.mutateNew isStatic .idle

def doInitialize (isStatic : Bool) : Option (Outcome Code) := initializeLoop isStatic c.size c

/-- `if (needInitTop()) InitTop(); else if (reset) top()->Reset(_owner);` -/
def settleTop (reset : Bool) : Option (Outcome Code) :=
  if c.InRange then
    if c.needInit (c.size - 1) ∨ reset then
      match c.top with
      | some (some _) =>
        some (.callback c (if c.needInit (c.size - 1) then .initTop else .nothing))
      | _ => none
    else some (.done c)
  else none

/-- `MotionMaster::DirectClean`, with the size as fuel -/
def directCleanLoop (reset : Bool) : ℕ → MotionMaster → Option (Outcome Code)
  | 0, c => c.settleTop reset
  | n + 1, c =>
    if 1 < c.size then
      c.top.bind fun curr => c.pop.bind fun c =>
        match curr with
        | some g => c.directDelete g (.clean reset) (directCleanLoop reset n)
        | none => directCleanLoop reset n c
    else c.settleTop reset

def directClean (reset : Bool) : Option (Outcome Code) := directCleanLoop reset c.size c

/-- `MotionMaster::DelayedClean`, with the size as fuel -/
def delayedCleanLoop : ℕ → MotionMaster → Option MotionMaster
  | 0, c => some c
  | n + 1, c =>
    if 1 < c.size then
      c.top.bind fun curr => c.pop.bind fun c =>
        match curr with
        | some g => delayedCleanLoop n (c.delayedDelete g)
        | none => delayedCleanLoop n c
    else some c

def delayedClean : Option MotionMaster := delayedCleanLoop c.size c

/-- `while (!top()) --_top;` as the expiries have it -/
def scanDown : Option MotionMaster :=
  if c.InRange then (scan c.impl c.size).map fun n => { c with size := n } else none

/-- The end of `MotionMaster::DirectExpire`.  Its branch for an empty stack is not there: the
scan ends at a generator or not at all. -/
def expireEnd (reset : Bool) : Option (Outcome Code) :=
  c.scanDown.bind fun c => c.settleTop reset

/-- `MotionMaster::DirectExpire` -/
def directExpire (reset : Bool) : Option (Outcome Code) :=
  if 1 < c.size then
    c.top.bind fun curr => c.pop.bind fun c =>
      curr.bind fun g => c.directDelete g (.expire reset) fun c => c.expireEnd reset
  else c.expireEnd reset

/-- `MotionMaster::DelayedExpire` -/
def delayedExpire : Option MotionMaster :=
  if 1 < c.size then
    c.top.bind fun curr => c.pop.bind fun c =>
      curr.bind fun g => (c.delayedDelete g).scanDown
  else c.scanDown

/-- `MotionMaster::Clear` -/
def clear (reset : Bool) : Option (Outcome Code) :=
  if c.update then (delayedClean { c with reset := reset }).map .done else c.directClean reset

/-- `MotionMaster::MovementExpired` -/
def movementExpired (reset : Bool) : Option (Outcome Code) :=
  if c.update then (delayedExpire { c with reset := reset }).map .done else c.directExpire reset

/-- What is left of a function after the generator it called has returned. -/
def after : Code → Option (Outcome Code)
  | .mutate m slot => some (c.install m slot)
  | .doInitialize isStatic => c.doInitialize isStatic
  | .clean reset => c.directClean reset
  | .expire reset => c.expireEnd reset
  | .initTop =>
    if c.InRange then
      some (.done { c with needInit := Function.update c.needInit (c.size - 1) false })
    else none
  | .nothing => some (.done c)

/-- The loop of `UpdateMotion` over `_expList`, with what follows it: the top is set going and
`MMCF_RESET` is cleared. -/
def deleteExpired : Option (Outcome Frame) :=
  match c.expList with
  | id :: rest =>
    some (.callback { c with expList := rest, finalized := id :: c.finalized } .expList)
  | [] =>
    (c.settleTop c.reset).map fun
      | .done c => .done { c with reset := false }
      | .callback c k => .callback c (.code k .updateEnd)

/-- The rest of `UpdateMotion` after a function it called. -/
def finish : Then → Option (Outcome Frame)
  | .done => some (.done c)
  | .afterExpired => if c.expList = [] then some (.done c) else c.deleteExpired
  | .updateEnd => some (.done { c with reset := false })

end MotionMaster

/-- A function run with what follows it. -/
def Outcome.andThen (next : Then) : Outcome Code → Option (Outcome Frame)
  | .done c => c.finish next
  | .callback c k => some (.callback c (.code k next))

namespace MotionMaster

variable (c : MotionMaster)

/-- `MotionMaster::UpdateMotion` up to the generator's `Update` -/
def updateMotion (rooted : Bool) : Option (Outcome Frame) :=
  if rooted then some (.done c)
  else c.top.bind fun curr => curr.bind fun g =>
    some (.callback { c with update := true } (.update g))

/-- A generator has returned, with the value `b`, to the frame it was called from. -/
def resume (b : Bool) : Frame → Option (Outcome Frame)
  | .code k next => (c.after k).bind (Outcome.andThen next)
  | .update _ =>
    let c := { c with update := false }
    if b then c.finish .afterExpired
    else (c.movementExpired true).bind (Outcome.andThen .afterExpired)
  | .expList => c.deleteExpired

end MotionMaster

/-- A master and the calls of generators that have not returned, the innermost first. -/
structure State where
  master : MotionMaster
  frames : List Frame

/-- What happens next: a call of the master, from outside or from the generator that runs, or
the return of that generator. -/
inductive Input where
  | doInitialize (isStatic : Bool)
  | mutate (isStatic : Bool) (slot : MovementSlot)
  | clear (reset : Bool)
  | movementExpired (reset : Bool)
  | updateMotion (rooted : Bool)
  | ret (b : Bool)

/-- The state a function leaves, above the frames it was called from. -/
def Outcome.state (frames : List Frame) : Outcome Frame → State
  | .done c => ⟨c, frames⟩
  | .callback c f => ⟨c, f :: frames⟩

def State.step (s : State) : Input → Option State
  | .doInitialize isStatic =>
    ((s.master.doInitialize isStatic).bind (Outcome.andThen .done)).map (Outcome.state s.frames)
  | .mutate isStatic slot =>
    ((s.master.mutateNew isStatic slot).bind (Outcome.andThen .done)).map
      (Outcome.state s.frames)
  | .clear reset =>
    ((s.master.clear reset).bind (Outcome.andThen .done)).map (Outcome.state s.frames)
  | .movementExpired reset =>
    ((s.master.movementExpired reset).bind (Outcome.andThen .done)).map (Outcome.state s.frames)
  | .updateMotion rooted => (s.master.updateMotion rooted).map (Outcome.state s.frames)
  | .ret b =>
    match s.frames with
    | [] => some s
    | f :: frames => (s.master.resume b f).map (Outcome.state frames)

/-- One step; there is none after a step without a next state. -/
def step (s : Option State) (i : Input) : Option State := s.bind fun s => s.step i

def initial : State := ⟨.new, []⟩

/-- What can come in: any function at the top level; from a generator, `Mutate`, `Clear`,
`MovementExpired` or its return. -/
def Proper (s : State) : Input → Prop
  | .doInitialize _ | .updateMotion _ => s.frames = []
  | .ret _ => s.frames ≠ []
  | .mutate _ _ | .clear _ | .movementExpired _ => True

instance (s : State) : DecidablePred (Proper s)
  | .doInitialize _ => inferInstanceAs (Decidable (s.frames = []))
  | .updateMotion _ => inferInstanceAs (Decidable (s.frames = []))
  | .ret _ => inferInstanceAs (Decidable (s.frames ≠ []))
  | .mutate _ _ | .clear _ | .movementExpired _ => .isTrue trivial

end ZerosCore.Motion
