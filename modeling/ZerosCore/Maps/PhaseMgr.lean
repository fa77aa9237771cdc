/-
# The phases of a player

`PhaseMgr`, `PhaseData` and `PhaseUpdateData` (`src/server/game/Maps/PhaseMgr.h` and
`PhaseMgr.cpp`), with the calls that `AuraEffect::HandlePhase`, `Player::UpdateArea`,
`Player::UpdateZone` and the phase command make of them.

What a player sees of the world is a mask of phases on the server and a set of phase ids
and terrain swaps on the client.  Both are kept up to date from three sources: the phase
definitions of the zone whose conditions he meets, the phasing aura effects on him, and
a custom mask a command may set.  The field `registered` is not one of the source: it
lists the aura effects that are registered now, each with the data it was registered
with.  The conditions a player meets are not part of this component; a request that
evaluates them carries the result, as `meets`.  Whether he is a game master does not
change here.
-/

import ZerosCore.Lib.Keyed
import Mathlib.Data.Finset.Basic
import Mathlib.Data.Finset.Image

namespace ZerosCore.Phases

open Lib.Keyed

def phasemaskNormal : BitVec 32 := 1

def phasemaskAnywhere : BitVec 32 := 0xFFFFFFFF

/-- `PhaseDefinition`, with the three bits of `flags` by name. -/
structure PhaseDefinition where
  zoneId : ℕ
  entry : ℕ
  phasemask : BitVec 32
  phaseId : ℕ
  terrainswapmap : ℕ
  isOverwritingExistingPhases : Bool
  isLastDefinition : Bool
  isNegatingPhasemask : Bool

structure SpellPhaseInfo where
  phasemask : BitVec 32
  terrainswapmap : ℕ

structure PhaseInfo where
  phasemask : BitVec 32
  terrainswapmap : ℕ
  phaseId : ℕ

namespace PhaseInfo

variable (info : PhaseInfo)

def needsServerSideUpdate : Bool := info.phasemask ≠ 0

def needsClientSideUpdate : Bool := info.terrainswapmap ≠ 0 ∨ info.phaseId ≠ 0

end PhaseInfo

/-- An entry of `spellPhaseInfo`. -/
structure AuraInfo where
  spellId : ℕ
  info : PhaseInfo

/-- A phasing aura effect.  `number` tells apart the effects of one spell, on one aura or
on several. -/
structure AuraEffect where
  id : ℕ
  number : ℕ
  miscValue : BitVec 32
  miscValueB : ℕ
  deriving DecidableEq

structure Condition where
  conditionType : ℕ
  conditionValue1 : ℕ

structure PhaseUpdateData where
  conditionTypeFlags : BitVec 32
  questId : ℕ

/-- `CONDITION_QUESTREWARDED`, `CONDITION_QUESTTAKEN`, `CONDITION_QUEST_COMPLETE` and
`CONDITION_QUEST_NONE`. -/
def questConditions : List ℕ := [8, 9, 28, 14]

def PhaseUpdateData.isConditionRelated (data : PhaseUpdateData) (c : Condition) : Bool :=
  if c.conditionType ∈ questConditions then
    c.conditionValue1 = data.questId ∧ data.conditionTypeFlags.getLsbD c.conditionType
  else data.conditionTypeFlags.getLsbD c.conditionType

/-- What is loaded from the database: the definitions of each zone, the data of spells
without a misc value, and the conditions of each definition. -/
structure Stores where
  phaseDefinitions : ℕ → Option (List PhaseDefinition)
  spellPhases : ℕ → Option SpellPhaseInfo
  conditions : ℕ → ℕ → List Condition

/-- The bits of `_UpdateFlags`. -/
structure UpdateFlags where
  zoneUpdate : Bool
  areaUpdate : Bool
  clientsideChanged : Bool
  serversideChanged : Bool

def UpdateFlags.none : UpdateFlags := ⟨false, false, false, false⟩

/-- What `SendSetPhaseShift` is given: the phase ids and the terrain swaps. -/
structure PhaseShift where
  phaseIds : Finset ℕ
  terrainswaps : Finset ℕ
  deriving DecidableEq

structure PhaseMgr where
  stores : Stores
  updateFlags : UpdateFlags
  phasemaskThroughDefinitions : BitVec 32
  phasemaskThroughAuras : BitVec 32
  customPhasemask : BitVec 32
  activePhaseDefinitions : List PhaseDefinition
  spellPhaseInfo : Table AuraInfo.spellId
  /-- `player->GetZoneId()` -/
  zoneId : ℕ
  /-- `player->isGameMaster()` -/
  gameMaster : Bool
  /-- `player->GetPhaseMask()` -/
  phaseMask : BitVec 32
  /-- the client-side update the last request made, if it made one -/
  phaseShift : Option PhaseShift
  registered : List (AuraEffect × PhaseInfo)

/-- The zone or the area update, the two flags callers raise and lower. -/
inductive Updating
  | zone
  | area

inductive Request
  | registerPhasingAuraEffect (auraEffect : AuraEffect)
  | unRegisterPhasingAuraEffect (auraEffect : AuraEffect)
  | addUpdateFlag (updateFlag : Updating)
  | removeUpdateFlag (updateFlag : Updating) (meets : PhaseDefinition → Bool)
  | relocate (zoneId : ℕ)
  | notifyConditionChanged (updateData : PhaseUpdateData) (meets : PhaseDefinition → Bool)
  | notifyStoresReloaded (stores : Stores) (meets : PhaseDefinition → Bool)
  | setCustomPhase (phaseMask : BitVec 32)

def unionMask (l : List PhaseInfo) : BitVec 32 := l.foldl (fun m i => m ||| i.phasemask) 0

/-- The values of a list that are not zero, as a set. -/
def nonzero (l : List ℕ) : Finset ℕ := (l.filter (· ≠ 0)).toFinset

namespace PhaseMgr

variable (m : PhaseMgr)

def getPhaseMaskForSpawn : BitVec 32 :=
  let phase := m.phasemaskThroughDefinitions ||| m.phasemaskThroughAuras
  if phase ≠ 0 then phase else phasemaskNormal

def getCurrentPhasemask : BitVec 32 :=
  if m.gameMaster then phasemaskAnywhere
  else if m.customPhasemask ≠ 0 then m.customPhasemask
  else m.getPhaseMaskForSpawn

def isUpdateInProgress : Bool := m.updateFlags.zoneUpdate || m.updateFlags.areaUpdate

def hasActiveDefinitions : Bool := m.activePhaseDefinitions ≠ []

/-- `|= PHASE_UPDATE_FLAG_CLIENTSIDE_CHANGED`, if the condition holds. -/
def markClientside (c : Bool) : PhaseMgr :=
  { m with updateFlags := { m.updateFlags with
      clientsideChanged := m.updateFlags.clientsideChanged || c } }

/-- `|= PHASE_UPDATE_FLAG_SERVERSIDE_CHANGED`, if the condition holds. -/
def markServerside (c : Bool) : PhaseMgr :=
  { m with updateFlags := { m.updateFlags with
      serversideChanged := m.updateFlags.serversideChanged || c } }

def sendPhaseMaskToPlayer : PhaseMgr :=
  if m.phaseMask = m.getCurrentPhasemask then m
  else { m with phaseMask := m.getCurrentPhasemask }

/-- The sets `SendPhaseshiftToPlayer` collects from the spells and from the definitions. -/
def collectPhaseShift : PhaseShift where
  phaseIds := nonzero (m.spellPhaseInfo.rows.map fun a => a.info.phaseId) ∪
    nonzero (m.activePhaseDefinitions.map fun d => d.phaseId)
  terrainswaps := nonzero (m.spellPhaseInfo.rows.map fun a => a.info.terrainswapmap) ∪
    nonzero (m.activePhaseDefinitions.map fun d => d.terrainswapmap)

def sendPhaseshiftToPlayer : PhaseMgr := { m with phaseShift := some m.collectPhaseShift }

def update : PhaseMgr :=
  if m.isUpdateInProgress then m
  else
    let m := if m.updateFlags.clientsideChanged then m.sendPhaseshiftToPlayer else m
    let m := if m.updateFlags.serversideChanged then m.sendPhaseMaskToPlayer else m
    { m with updateFlags := .none }

def resetDefinitions : PhaseMgr :=
  { m with phasemaskThroughDefinitions := 0, activePhaseDefinitions := [] }

def addPhaseDefinition (d : PhaseDefinition) : PhaseMgr :=
  if d.isOverwritingExistingPhases then
    { m with phasemaskThroughDefinitions := d.phasemask, activePhaseDefinitions := [d] }
  else
    let mask := m.phasemaskThroughDefinitions
    { m with
      phasemaskThroughDefinitions :=
        if d.isNegatingPhasemask then mask &&& ~~~ d.phasemask else mask ||| d.phasemask
      activePhaseDefinitions := m.activePhaseDefinitions ++ [d] }

/-- The start of a recalculation: active definitions are dropped. -/
def dropDefinitions : PhaseMgr :=
  if m.hasActiveDefinitions then (m.resetDefinitions.markClientside true).markServerside true
  else m

/-- The loop of `Recalculate` over the definitions of the zone. -/
def addDefinitions (meets : PhaseDefinition → Bool) : List PhaseDefinition → PhaseMgr → PhaseMgr
  | [], m => m
  | d :: ds, m =>
    if meets d then
      let m := m.addPhaseDefinition d
      let m := m.markServerside (d.phasemask ≠ 0)
      let m := m.markClientside (d.phaseId ≠ 0 ∨ d.terrainswapmap ≠ 0)
      if d.isLastDefinition then m else addDefinitions meets ds m
    else addDefinitions meets ds m

def recalculate (meets : PhaseDefinition → Bool) : PhaseMgr :=
  match m.stores.phaseDefinitions m.zoneId with
  | some ds => addDefinitions meets ds m.dropDefinitions
  | none => m.dropDefinitions

def addUpdateFlag : Updating → PhaseMgr
  | .zone => { m with updateFlags := { m.updateFlags with zoneUpdate := true } }
  | .area => { m with updateFlags := { m.updateFlags with areaUpdate := true } }

def removeUpdateFlag (meets : PhaseDefinition → Bool) : Updating → PhaseMgr
  | .zone =>
    let m := { m with updateFlags := { m.updateFlags with zoneUpdate := false } }
    let m := m.dropDefinitions
    update (if (m.stores.phaseDefinitions m.zoneId).isSome then m.recalculate meets else m)
  | .area => update { m with updateFlags := { m.updateFlags with areaUpdate := false } }

def needsPhaseUpdateWithData (data : PhaseUpdateData) : Bool :=
  match m.stores.phaseDefinitions m.zoneId with
  | some ds => ds.any fun d => (m.stores.conditions d.zoneId d.entry).any data.isConditionRelated
  | none => false

def notifyConditionChanged (data : PhaseUpdateData) (meets : PhaseDefinition → Bool) : PhaseMgr :=
  if m.needsPhaseUpdateWithData data then (m.recalculate meets).update else m

def notifyStoresReloaded (stores : Stores) (meets : PhaseDefinition → Bool) : PhaseMgr :=
  (recalculate { m with stores } meets).update

/-- The phase data of an effect: its misc value is the mask, or the spell has data of its
own. -/
def phaseInfoOf (e : AuraEffect) : PhaseInfo :=
  if e.miscValue ≠ 0 then ⟨e.miscValue, 0, e.miscValueB⟩
  else match m.stores.spellPhases e.id with
    | some s => ⟨s.phasemask, s.terrainswapmap, e.miscValueB⟩
    | none => ⟨0, 0, e.miscValueB⟩

def addAuraInfo (spellId : ℕ) (info : PhaseInfo) : PhaseMgr :=
  { m with
    phasemaskThroughAuras := if info.phasemask ≠ 0 then m.phasemaskThroughAuras ||| info.phasemask
      else m.phasemaskThroughAuras
    spellPhaseInfo := m.spellPhaseInfo.put ⟨spellId, info⟩ }

/-- `RemoveAuraInfo`, the flags it returns set at once. -/
def removeAuraInfo (spellId : ℕ) : PhaseMgr :=
  match m.spellPhaseInfo.get? spellId with
  | some a =>
    let m := m.markClientside a.info.needsClientSideUpdate
    if a.info.needsServerSideUpdate then
      let m := { m with spellPhaseInfo := m.spellPhaseInfo.erase spellId }
      let m := { m with phasemaskThroughAuras := unionMask (m.spellPhaseInfo.rows.map AuraInfo.info) }
      m.markServerside true
    else m
  | none => m

def registerPhasingAuraEffect (e : AuraEffect) : PhaseMgr :=
  let info := m.phaseInfoOf e
  let m := m.markServerside info.needsServerSideUpdate
  let m := m.markClientside info.needsClientSideUpdate
  let m := m.addAuraInfo e.id info
  update { m with registered := (e, info) :: m.registered.filter fun x => x.1 ≠ e }

def unRegisterPhasingAuraEffect (e : AuraEffect) : PhaseMgr :=
  let m := m.removeAuraInfo e.id
  update { m with registered := m.registered.filter fun x => x.1 ≠ e }

def setCustomPhase (phaseMask : BitVec 32) : PhaseMgr :=
  update (markServerside { m with customPhasemask := phaseMask } true)

/-- One request; what the one before it sent to the client is forgotten. -/
def step : Request → PhaseMgr
  | .registerPhasingAuraEffect e => registerPhasingAuraEffect { m with phaseShift := none } e
  | .unRegisterPhasingAuraEffect e => unRegisterPhasingAuraEffect { m with phaseShift := none } e
  | .addUpdateFlag f => addUpdateFlag { m with phaseShift := none } f
  | .removeUpdateFlag f meets => removeUpdateFlag { m with phaseShift := none } meets f
  | .relocate zoneId => { m with phaseShift := none, zoneId }
  | .notifyConditionChanged data meets =>
    notifyConditionChanged { m with phaseShift := none } data meets
  | .notifyStoresReloaded stores meets =>
    notifyStoresReloaded { m with phaseShift := none } stores meets
  | .setCustomPhase phaseMask => setCustomPhase { m with phaseShift := none } phaseMask

/-- A player before any request: without phase data, in every phase if he is a game master
and in the phase units are made in if not. -/
def start (stores : Stores) (zoneId : ℕ) (gameMaster : Bool) : PhaseMgr where
  stores := stores
  updateFlags := .none
  phasemaskThroughDefinitions := 0
  phasemaskThroughAuras := 0
  customPhasemask := 0
  activePhaseDefinitions := []
  spellPhaseInfo := Table.empty _
  zoneId := zoneId
  gameMaster := gameMaster
  phaseMask := if gameMaster then phasemaskAnywhere else phasemaskNormal
  phaseShift := none
  registered := []

end PhaseMgr
end ZerosCore.Phases
