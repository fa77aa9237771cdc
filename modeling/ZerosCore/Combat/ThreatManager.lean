/-
# The threat manager

`ThreatManager`, `ThreatContainer` and `HostileReference` of
`src/server/game/Combat/ThreatManager.cpp` and `ThreatManager.h`, with `Reference` of
`src/server/shared/Dynamic/LinkedReference/Reference.h` and the callers in
`HostileRefManager.cpp` and `SpellEffects.cpp`.

The references are objects with pointers to them: a pointer is a number, `refs` are the
objects that are there, and the two containers and the current victim hold pointers.  The
setters of a reference call back into the manager with an event, which moves the reference
from one container to the other; a threat on a pet calls back with a threat on its owner, and
a number bounds how far up this goes.

The threats are floating-point numbers, whose operations are a parameter.  What is asked of
the units in the world, which changes from request to request, is a `World`; the packets and
the timer of the updates sent to the clients are left out.
-/

import Mathlib.Data.List.Basic
import Mathlib.Data.Int.Notation

namespace ZerosCore.Combat

/-- What the code does with floating-point numbers; `pct` is a percentage of one. -/
structure Floats (F : Type) where
  zero : F
  add : F → F → F
  sub : F → F → F
  pct : F → ℤ → F
  mul11 : F → F
  mul13 : F → F
  lt : F → F → Bool
  le : F → F → Bool
  eq : F → F → Bool

/-- What is asked of the units in the world, by the creature whose threat is managed. -/
structure World (F : Type) where
  owner : ℕ
  isGameMaster : ℕ → Bool
  isAlive : ℕ → Bool
  isInMap : ℕ → Bool
  inSamePhase : ℕ → Bool
  isInFlight : ℕ → Bool
  isInAccessiblePlace : ℕ → Bool
  isWithinCombatRange : ℕ → Bool
  isWithinMeleeRange : ℕ → Bool
  canCreatureAttack : ℕ → Bool
  /-- Immune to the damage, or with an aura that damage would break. -/
  isSecondChoice : ℕ → Bool
  /-- `ObjectAccessor::GetUnit` finds the unit. -/
  getUnit : ℕ → Bool
  getCharmerOrOwner : ℕ → Option ℕ
  getRedirectThreatPercent : ℕ → ℕ
  getRedirectThreatTarget : ℕ → Option ℕ
  calcThreat : ℕ → F → F

/-- `HostileReference`; `isValid` is whether it has a target. -/
structure HostileReference (F : Type) where
  threat : F
  tempThreatModifier : F
  unitGuid : ℕ
  isOnline : Bool
  isAccessible : Bool
  isValid : Bool

/-- `ThreatManager`, with the threat lists of its two containers. -/
structure ThreatManager (F : Type) where
  refs : ℕ → Option (HostileReference F)
  /-- The next pointer `new` answers with. -/
  next : ℕ
  online : List ℕ
  offline : List ℕ
  dirty : Bool
  currentVictim : Option ℕ

/-- `ThreatRefStatusChangeEvent`. -/
inductive Event (F : Type) where
  | onlineStatus
  | threatChange (value : F)
  | removeFromList
  | accessibleStatus

namespace World

variable {F : Type} (w : World F)

def isValidProcess (hated : ℕ) (noThreat : Bool) : Bool :=
  hated != w.owner && !w.isGameMaster hated && w.isAlive hated && w.isAlive w.owner &&
    w.isInMap hated && w.inSamePhase hated && !noThreat

end World

namespace ThreatManager

variable {F : Type}

def empty : ThreatManager F := ⟨fun _ => none, 0, [], [], false, none⟩

def setDirty (s : ThreatManager F) : ThreatManager F := { s with dirty := true }

/-- A write through a pointer. -/
def modify (s : ThreatManager F) (id : ℕ) (f : HostileReference F → HostileReference F) :
    ThreatManager F :=
  { s with refs := fun j => if j = id then (s.refs j).map f else s.refs j }

/-- `list::remove`. -/
def remove (l : List ℕ) (id : ℕ) : List ℕ := l.filter fun j => j ≠ id

def getReferenceByTarget (s : ThreatManager F) (l : List ℕ) (victim : ℕ) : Option ℕ :=
  l.find? fun id => (s.refs id).any fun r => r.unitGuid == victim

def setCurrentVictim (s : ThreatManager F) (victim : Option ℕ) : ThreatManager F :=
  { s with currentVictim := victim }

section

variable (ops : Floats F)

def getThreat (s : ThreatManager F) (id : ℕ) : F := ((s.refs id).map (·.threat)).getD ops.zero

/-- The current victim goes. -/
def dropVictim (s : ThreatManager F) (id : ℕ) : ThreatManager F :=
  if s.currentVictim = some id then (s.setCurrentVictim none).setDirty else s

def processThreatEvent (s : ThreatManager F) (id : ℕ) (r : HostileReference F) :
    Event F → ThreatManager F
  | .threatChange value =>
    if (s.currentVictim = some id ∧ ops.lt value ops.zero) ∨
        (s.currentVictim ≠ some id ∧ ops.lt ops.zero value) then
      s.setDirty
    else s
  | .onlineStatus =>
    if r.isOnline then
      let s :=
        match s.currentVictim with
        | some victim =>
          if ops.lt (ops.mul11 (s.getThreat ops victim)) r.threat then s.setDirty else s
        | none => s
      { s with online := s.online ++ [id], offline := remove s.offline id }
    else
      let s := s.dropVictim id
      { s with online := remove s.online id, offline := s.offline ++ [id] }
  | .removeFromList =>
    let s := s.dropVictim id
    if r.isOnline then { s with online := remove s.online id }
    else { s with offline := remove s.offline id }
  | .accessibleStatus => s

def fireStatusChanged (s : ThreatManager F) (id : ℕ) (event : Event F) : ThreatManager F :=
  match s.refs id with
  | none => s
  | some r => s.processThreatEvent ops id r event

def setAccessibleState (s : ThreatManager F) (id : ℕ) (isAccessible : Bool) : ThreatManager F :=
  if (s.refs id).any fun r => r.isAccessible != isAccessible then
    (s.modify id fun r => { r with isAccessible := isAccessible }).fireStatusChanged ops id
      .accessibleStatus
  else s

def setOnlineOfflineState (s : ThreatManager F) (id : ℕ) (isOnline : Bool) : ThreatManager F :=
  if (s.refs id).any fun r => r.isOnline != isOnline then
    let s := s.modify id fun r => { r with isOnline := isOnline }
    let s := if isOnline then s else s.setAccessibleState ops id false
    s.fireStatusChanged ops id .onlineStatus
  else s

variable (w : World F)

/-- The reference is linked again if its target is found. -/
def relink (s : ThreatManager F) (id : ℕ) : ThreatManager F :=
  s.modify id fun r => { r with isValid := r.isValid || w.getUnit r.unitGuid }

/-- Whether a target can be fought at all. -/
def isReachable (r : HostileReference F) : Bool :=
  r.isValid && !w.isGameMaster r.unitGuid && !w.isInFlight r.unitGuid && w.isInMap r.unitGuid &&
    w.inSamePhase r.unitGuid

def updateOnlineStatus (s : ThreatManager F) (id : ℕ) : ThreatManager F :=
  let s := s.relink w id
  match s.refs id with
  | none => s
  | some r =>
    let accessible := isReachable w r && w.isInAccessiblePlace r.unitGuid
    let online := accessible || isReachable w r && w.isWithinCombatRange r.unitGuid
    (s.setAccessibleState ops id accessible).setOnlineOfflineState ops id online

/-- The reference is linked again if it was offline. -/
def wake (s : ThreatManager F) (id : ℕ) : ThreatManager F :=
  if (s.refs id).any (·.isOnline) then s else s.updateOnlineStatus ops w id

/-- `HostileReference::addThreat` for the target itself. -/
def changeThreat (s : ThreatManager F) (id : ℕ) (modThreat : F) : ThreatManager F :=
  let s := (s.modify id fun r => { r with threat := ops.add r.threat modThreat }).wake ops w id
  if ops.eq modThreat ops.zero then s else s.fireStatusChanged ops id (.threatChange modThreat)

/-- `HostileReference::addThreat`; `addThreat` is that of the manager. -/
def refAddThreat (addThreat : ThreatManager F → ℕ → F → ThreatManager F) (s : ThreatManager F)
    (id : ℕ) (modThreat : F) : ThreatManager F :=
  let s := s.changeThreat ops w id modThreat
  match s.refs id with
  | none => s
  | some r =>
    if r.isValid && ops.le ops.zero modThreat then
      match w.getCharmerOrOwner r.unitGuid with
      | none => s
      | some victimOwner => if w.isAlive victimOwner then addThreat s victimOwner ops.zero else s
    else s

/-- `HostileReference::HostileReference`, put into the online container. -/
def newReference (s : ThreatManager F) (victim : ℕ) : ThreatManager F :=
  { s with
    refs := fun j =>
      if j = s.next then
        some { threat := ops.zero, tempThreatModifier := ops.zero, unitGuid := victim,
               isOnline := true, isAccessible := true, isValid := true }
      else s.refs j
    next := s.next + 1
    online := s.online ++ [s.next] }

/-- `ThreatManager::_addThreat`. -/
def addThreatTo (addThreat : ThreatManager F → ℕ → F → ThreatManager F) (s : ThreatManager F)
    (victim : ℕ) (threat : F) : ThreatManager F :=
  match s.getReferenceByTarget s.online victim with
  | some id => s.refAddThreat ops w addThreat id threat
  | none =>
    match s.getReferenceByTarget s.offline victim with
    | some id => s.refAddThreat ops w addThreat id threat
    | none =>
      let t := (s.newReference ops victim).refAddThreat ops w addThreat s.next threat
      if w.isGameMaster victim then t.setOnlineOfflineState ops s.next false else t

def doAddThreat (addThreat : ThreatManager F → ℕ → F → ThreatManager F) (s : ThreatManager F)
    (victim : ℕ) (threat : F) : ThreatManager F :=
  let pct := w.getRedirectThreatPercent victim
  if ops.lt ops.zero threat ∧ pct ≠ 0 then
    match w.getRedirectThreatTarget victim with
    | none => s.addThreatTo ops w addThreat victim threat
    | some redirectTarget =>
      let redirectThreat := ops.pct threat pct
      (s.addThreatTo ops w addThreat redirectTarget redirectThreat).addThreatTo ops w addThreat
        victim (ops.sub threat redirectThreat)
  else s.addThreatTo ops w addThreat victim threat

/-- `ThreatManager::addThreat`, up to a number of owners of owners. -/
def addThreat : ℕ → Bool → ThreatManager F → ℕ → F → ThreatManager F
  | 0, _, s, _, _ => s
  | n + 1, noThreat, s, victim, threat =>
    if w.isValidProcess victim noThreat then
      s.doAddThreat ops w (addThreat n false) victim (w.calcThreat victim threat)
    else s

/-- What a scan of the threat list comes to. -/
inductive Scan where
  | found (id : ℕ)
  /-- Everyone is a second choice target: once more, with this current victim. -/
  | again (currentVictim : Option ℕ)
  | notFound

def target (s : ThreatManager F) (id : ℕ) : ℕ := ((s.refs id).map (·.unitGuid)).getD 0

/-- The loop of `ThreatContainer::selectNextVictim`. -/
def scan (s : ThreatManager F) (noPriorityTargetFound : Bool) : List ℕ → Option ℕ → Scan
  | [], _ => .notFound
  | ref :: rest, currentVictim =>
    if !noPriorityTargetFound && w.isSecondChoice (s.target ref) then
      if rest ≠ [] then
        scan s noPriorityTargetFound rest
          (if currentVictim = some ref then none else currentVictim)
      else .again currentVictim
    else if w.canCreatureAttack (s.target ref) then
      match currentVictim with
      | none => .found ref
      | some victim =>
        let threat := s.getThreat ops ref
        let victimThreat := s.getThreat ops victim
        if victim = ref ∨ ops.le threat (ops.mul11 victimThreat) then
          if victim ≠ ref ∧ w.canCreatureAttack (s.target victim) then .found victim
          else .found ref
        else if ops.lt (ops.mul13 victimThreat) threat ∨
            (ops.lt (ops.mul11 victimThreat) threat ∧ w.isWithinMeleeRange (s.target ref)) then
          .found ref
        else scan s noPriorityTargetFound rest currentVictim
    else scan s noPriorityTargetFound rest currentVictim

def selectNextVictim (s : ThreatManager F) (currentVictim : Option ℕ) : Option ℕ :=
  match s.scan ops w false s.online currentVictim with
  | .found id => some id
  | .notFound => none
  | .again currentVictim =>
    match s.scan ops w true s.online currentVictim with
    | .found id => some id
    | _ => none

/-- `ThreatContainer::update`; `list::sort` is stable. -/
def update (s : ThreatManager F) : ThreatManager F :=
  { s with
    online :=
      if s.dirty ∧ 1 < s.online.length then
        s.online.mergeSort fun a b => !ops.lt (s.getThreat ops a) (s.getThreat ops b)
      else s.online
    dirty := false }

def getHostilTarget (s : ThreatManager F) : ThreatManager F :=
  let s := s.update ops
  s.setCurrentVictim (s.selectNextVictim ops w s.currentVictim)

def clearReferences (s : ThreatManager F) : ThreatManager F :=
  { s with
    refs := fun j => if j ∈ s.online ∨ j ∈ s.offline then none else s.refs j
    online := []
    offline := []
    currentVictim := none }

/-- `Reference::invalidate`: the target is gone. -/
def invalidate (s : ThreatManager F) (id : ℕ) : ThreatManager F :=
  (s.setOnlineOfflineState ops id false).modify id fun r => { r with isValid := false }

/-- `HostileReference::removeReference`, after which the reference is deleted. -/
def removeReference (s : ThreatManager F) (id : ℕ) : ThreatManager F :=
  let s := (s.invalidate ops id).fireStatusChanged ops id .removeFromList
  { s with refs := fun j => if j = id then none else s.refs j }

def addTempThreat (addThreat : ThreatManager F → ℕ → F → ThreatManager F) (s : ThreatManager F)
    (id : ℕ) (threat : F) : ThreatManager F :=
  let s := s.modify id fun r => { r with tempThreatModifier := threat }
  if ops.eq threat ops.zero then s else s.refAddThreat ops w addThreat id threat

def resetTempThreat (addThreat : ThreatManager F → ℕ → F → ThreatManager F) (s : ThreatManager F)
    (id : ℕ) : ThreatManager F :=
  match s.refs id with
  | none => s
  | some r =>
    if ops.eq r.tempThreatModifier ops.zero then s
    else
      (s.refAddThreat ops w addThreat id (ops.sub ops.zero r.tempThreatModifier)).modify id
        fun r => { r with tempThreatModifier := ops.zero }

def modifyThreatPercent (addThreat : ThreatManager F → ℕ → F → ThreatManager F)
    (s : ThreatManager F) (victim : ℕ) (percent : ℤ) : ThreatManager F :=
  match s.getReferenceByTarget s.online victim with
  | none => s
  | some id =>
    let threat := s.getThreat ops id
    s.refAddThreat ops w addThreat id
      (ops.sub (ops.add threat (ops.pct threat percent)) threat)

def tauntApply (addThreat : ThreatManager F → ℕ → F → ThreatManager F) (s : ThreatManager F)
    (taunter : ℕ) : ThreatManager F :=
  match s.currentVictim, s.getReferenceByTarget s.online taunter with
  | some victim, some id =>
    let victimThreat := s.getThreat ops victim
    if ops.lt (s.getThreat ops id) victimThreat ∧
        (s.refs id).any fun r => ops.eq r.tempThreatModifier ops.zero then
      s.addTempThreat ops w addThreat id (ops.sub victimThreat (s.getThreat ops id))
    else s
  | _, _ => s

def tauntFadeOut (addThreat : ThreatManager F → ℕ → F → ThreatManager F) (s : ThreatManager F)
    (taunter : ℕ) : ThreatManager F :=
  match s.getReferenceByTarget s.online taunter with
  | none => s
  | some id => s.resetTempThreat ops w addThreat id

end

end ThreatManager

/-- What is asked of a manager.  Requests with a pointer come from the list of references a
target has of itself. -/
inductive Request (F : Type) where
  | addThreat (victim : ℕ) (threat : F) (noThreat : Bool)
  | doAddThreat (victim : ℕ) (threat : F)
  | modifyThreatPercent (victim : ℕ) (percent : ℤ)
  | refAddThreat (id : ℕ) (threat : F)
  | addTempThreat (id : ℕ) (threat : F)
  | resetTempThreat (id : ℕ)
  | tauntApply (taunter : ℕ)
  | tauntFadeOut (taunter : ℕ)
  | setOnlineOfflineState (id : ℕ) (isOnline : Bool)
  | updateOnlineStatus (id : ℕ)
  | invalidate (id : ℕ)
  | removeReference (id : ℕ)
  | setDirty
  /-- `Spell::EffectTaunt` makes a unit in the threat list the current victim. -/
  | setCurrentVictim (victim : ℕ)
  | getHostilTarget
  | clearReferences

/-- Serves a request in a world. -/
def step {F : Type} (ops : Floats F) (deep : ℕ) (s : ThreatManager F) :
    World F × Request F → ThreatManager F
  | (w, .addThreat victim threat noThreat) => s.addThreat ops w deep noThreat victim threat
  | (w, .doAddThreat victim threat) =>
    s.doAddThreat ops w (ThreatManager.addThreat ops w deep false) victim threat
  | (w, .modifyThreatPercent victim percent) =>
    s.modifyThreatPercent ops w (ThreatManager.addThreat ops w deep false) victim percent
  | (w, .refAddThreat id threat) =>
    s.refAddThreat ops w (ThreatManager.addThreat ops w deep false) id threat
  | (w, .addTempThreat id threat) =>
    s.addTempThreat ops w (ThreatManager.addThreat ops w deep false) id threat
  | (w, .resetTempThreat id) =>
    s.resetTempThreat ops w (ThreatManager.addThreat ops w deep false) id
  | (w, .tauntApply taunter) =>
    s.tauntApply ops w (ThreatManager.addThreat ops w deep false) taunter
  | (w, .tauntFadeOut taunter) =>
    s.tauntFadeOut ops w (ThreatManager.addThreat ops w deep false) taunter
  | (_, .setOnlineOfflineState id isOnline) => s.setOnlineOfflineState ops id isOnline
  | (w, .updateOnlineStatus id) => s.updateOnlineStatus ops w id
  | (_, .invalidate id) => s.invalidate ops id
  | (_, .removeReference id) => s.removeReference ops id
  | (_, .setDirty) => s.setDirty
  | (_, .setCurrentVictim victim) =>
    match s.getReferenceByTarget s.online victim with
    | none => s
    | some id => s.setCurrentVictim (some id)
  | (w, .getHostilTarget) => s.getHostilTarget ops w
  | (_, .clearReferences) => s.clearReferences

end ZerosCore.Combat
