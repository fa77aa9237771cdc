/-
# Game events

Model of `src/server/game/Events/GameEventMgr.cpp`: `StartEvent` and `StopEvent` with what they
do to the tables of the world through `ApplyNewEvent` and `UnApplyEvent`: `GameEventSpawn` and
`GameEventUnspawn`, `ChangeEquipOrModel`, `UpdateEventQuests` and the `has…ActiveEventExcept`
checks.  The grids are those of `ObjectMgr::AddCreatureToGrid` and its siblings in
`src/server/game/Globals/ObjectMgr.cpp`.

A creature and a gameobject are treated alike up to the names, so the tables of one kind and
what an event does to them are stated once, for an `Objects` configuration.  The position and
the spawn mask of an object are read and never written here: they are part of the
configuration, while the display and the equipment of a creature's data are state.  What
`ChangeEquipOrModel` asks the rest of the server for, the creature in the world and the two
random draws for one that is not there, is an `Env` that comes with the start.
-/

import Mathlib.Algebra.BigOperators.Group.Finset.Basic

namespace ZerosCore.GameEvents

/-! ### Tables -/

/-- One guid in one cell of a map, in one spawn mode (`_mapObjectGuidsStore`). -/
structure CellGuid where
  mapid : ℕ
  mode : ℕ
  cell : ℕ
  guid : ℕ
deriving DecidableEq

/-- Where an object stands: what `AddCreatureToGrid` reads of its data. -/
structure SpawnData where
  mapid : ℕ
  spawnMask : UInt8
  cell : ℕ

/-- The cells an object is put in: one for each bit of its spawn mask. -/
def SpawnData.cellGuids (d : SpawnData) (guid : ℕ) : Finset CellGuid :=
  {i ∈ Finset.range 8 | d.spawnMask.toNat.testBit i}.image fun i => ⟨d.mapid, i, d.cell, guid⟩

/-- What the tables of the events say about the objects of one kind.  `guids` is indexed by the
signed event id: the objects tagged with the event, and with its negative. -/
structure Objects where
  data : ℕ → Option SpawnData
  guids : ℤ → List ℕ
  quests : ℕ → List (ℕ × ℕ)

structure Config where
  creatures : Objects
  gameobjects : Objects

/-- The world's tables for the objects of one kind: the multimap of quest relations and the
guids in the cells. -/
structure Tables where
  quests : Multiset (ℕ × ℕ)
  grid : Finset CellGuid

/-- The display and the equipment of a creature's data.  The signed equipment id is kept as its
byte, with 255 for `-1`. -/
structure Look where
  displayid : ℕ
  equipmentId : UInt8

structure ModelEquip where
  modelid : ℕ
  modelidPrev : ℕ
  equipmentId : UInt8
  equipementIdPrev : UInt8

/-- The look an event gives. -/
def ModelEquip.look (m : ModelEquip) : Look := ⟨m.modelid, m.equipmentId⟩

/-- The look an event gives back. -/
def ModelEquip.prev (m : ModelEquip) : Look := ⟨m.modelidPrev, m.equipementIdPrev⟩

structure World where
  active : Finset ℕ
  creatures : Tables
  gameobjects : Tables
  data : ℕ → Option Look
  modelEquip : ℕ → List (ℕ × ModelEquip)

/-- What the start of an event finds in the rest of the server. -/
structure Env where
  /-- the creature in the world, with the look it has there -/
  inWorld : ℕ → Option Look
  /-- `GetRandomValidModelId` of the creature's template -/
  randomModel : ℕ → ℕ
  /-- `GetCreatureModelRandomGender`: the display it leaves -/
  randomGender : ℕ → ℕ → ℕ

/-! ### Spawns -/

/-- The cells of a guid; none without its data. -/
def Objects.cells (o : Objects) (guid : ℕ) : Finset CellGuid :=
  match o.data guid with
  | some d => d.cellGuids guid
  | none => ∅

/-- `GameEventMgr::GameEventSpawn` -/
def gameEventSpawn (o : Objects) (event : ℤ) (grid : Finset CellGuid) : Finset CellGuid :=
  (o.guids event).foldl (fun grid g => grid ∪ o.cells g) grid

/-- `GameEventMgr::hasCreatureActiveEventExcept` and `hasGameObjectActiveEventExcept` -/
def HasActiveEventExcept (o : Objects) (active : Finset ℕ) (guid : ℕ) (event : ℕ) : Prop :=
  ∃ a ∈ active, a ≠ event ∧ guid ∈ o.guids a

instance (o : Objects) (active : Finset ℕ) (guid event : ℕ) :
    Decidable (HasActiveEventExcept o active guid event) :=
  inferInstanceAs (Decidable (∃ a ∈ active, _ ∧ _))

/-- `GameEventMgr::GameEventUnspawn`; only a positive event leaves what another one needs. -/
def gameEventUnspawn (o : Objects) (active : Finset ℕ) (event : ℤ) (grid : Finset CellGuid) :
    Finset CellGuid :=
  (o.guids event).foldl (fun grid g =>
    if 0 < event ∧ HasActiveEventExcept o active g event.toNat then grid
    else grid \ o.cells g) grid

/-! ### Quests -/

/-- `hasCreatureQuestActiveEventExcept` and `hasGameObjectQuestActiveEventExcept`: the quest is
compared, and not who gives it. -/
def HasQuestActiveEventExcept (o : Objects) (active : Finset ℕ) (quest : ℕ) (event : ℕ) : Prop :=
  ∃ a ∈ active, a ≠ event ∧ ∃ p ∈ o.quests a, p.2 = quest

instance (o : Objects) (active : Finset ℕ) (quest event : ℕ) :
    Decidable (HasQuestActiveEventExcept o active quest event) :=
  inferInstanceAs (Decidable (∃ a ∈ active, _ ∧ ∃ p ∈ o.quests a, _))

/-- `GameEventMgr::UpdateEventQuests` for one of the two multimaps -/
def updateEventQuests (o : Objects) (active : Finset ℕ) (event : ℕ) (activate : Bool)
    (quests : Multiset (ℕ × ℕ)) : Multiset (ℕ × ℕ) :=
  (o.quests event).foldl (fun quests p =>
    if activate then p ::ₘ quests
    else if HasQuestActiveEventExcept o active p.2 event then quests
    else quests.erase p) quests

/-! ### Models -/

/-- `ObjectMgr::ChooseDisplayId` -/
def chooseDisplayId (env : Env) (guid : ℕ) (d : Look) : ℕ :=
  if d.displayid = 0 then env.randomModel guid else d.displayid

/-- What a start writes down about the creature, in the world or not. -/
def recordPrev (env : Env) (guid : ℕ) (d : Look) (m : ModelEquip) : ModelEquip :=
  match env.inWorld guid with
  | some shown =>
    { m with modelidPrev := shown.displayid, equipementIdPrev := shown.equipmentId }
  | none =>
    { m with
      modelidPrev := env.randomGender guid (chooseDisplayId env guid d)
      equipementIdPrev :=
        if d.equipmentId = 0 then 1
        else if d.equipmentId ≠ 255 then d.equipmentId
        else m.equipementIdPrev }

/-- `GameEventMgr::ChangeEquipOrModel`, over the event's list; `none` ends the event. -/
def changeEquipOrModel (env : Option Env) :
    (ℕ → Option Look) → List (ℕ × ModelEquip) → (ℕ → Option Look) × List (ℕ × ModelEquip)
  | data, [] => (data, [])
  | data, (g, m) :: rest =>
    match data g with
    | none =>
      let r := changeEquipOrModel env data rest
      (r.1, (g, m) :: r.2)
    | some d =>
      let m' := match env with
        | some env => recordPrev env g d m
        | none => m
      let look := if env.isSome then m'.look else m'.prev
      let r := changeEquipOrModel env (Function.update data g (some look)) rest
      (r.1, (g, m') :: r.2)

/-! ### Starts and stops -/

/-- The part of `ApplyNewEvent` about the objects of one kind -/
def applyTables (o : Objects) (active : Finset ℕ) (event : ℕ) (t : Tables) : Tables where
  grid := gameEventUnspawn o active (-event) (gameEventSpawn o event t.grid)
  quests := updateEventQuests o active event true t.quests

/-- The part of `UnApplyEvent` about the objects of one kind -/
def unApplyTables (o : Objects) (active : Finset ℕ) (event : ℕ) (t : Tables) : Tables where
  grid := gameEventSpawn o (-event) (gameEventUnspawn o active event t.grid)
  quests := updateEventQuests o active event false t.quests

/-- The models of an event, changed (`some env`) or given back. -/
def World.changeModels (w : World) (env : Option Env) (event : ℕ) : World :=
  let r := changeEquipOrModel env w.data (w.modelEquip event)
  { w with data := r.1, modelEquip := Function.update w.modelEquip event r.2 }

/-- `GameEventMgr::StartEvent` -/
def startEvent (cfg : Config) (w : World) (event : ℕ) (env : Env) : World :=
  let active := insert event w.active
  { w.changeModels (some env) event with
    active := active
    creatures := applyTables cfg.creatures active event w.creatures
    gameobjects := applyTables cfg.gameobjects active event w.gameobjects }

/-- `GameEventMgr::StopEvent` -/
def stopEvent (cfg : Config) (w : World) (event : ℕ) : World :=
  let active := w.active.erase event
  { w.changeModels none event with
    active := active
    creatures := unApplyTables cfg.creatures active event w.creatures
    gameobjects := unApplyTables cfg.gameobjects active event w.gameobjects }

inductive Op where
  | start (event : ℕ) (env : Env)
  | stop (event : ℕ)

def step (cfg : Config) (w : World) : Op → World
  | .start event env => startEvent cfg w event env
  | .stop event => stopEvent cfg w event

/-- An event is started only when inactive and stopped only when active; ids start at 1. -/
def Proper (w : World) : Op → Prop
  | .start event _ => 0 < event ∧ event ∉ w.active
  | .stop event => event ∈ w.active

instance (w : World) : DecidablePred (Proper w)
  | .start event _ => inferInstanceAs (Decidable (0 < event ∧ event ∉ w.active))
  | .stop event => inferInstanceAs (Decidable (event ∈ w.active))

/-- An object is tagged with some positive event. -/
def Objects.Tagged (o : Objects) (guid : ℕ) : Prop := ∃ e : ℕ, 0 < e ∧ guid ∈ o.guids e

/-- The tables as the server loads them: no event runs, and what is tagged with a positive event
is in no grid (`LoadCreatures` leaves out what has an event). -/
structure Loaded (cfg : Config) (w : World) : Prop where
  active : w.active = ∅
  creatures : ∀ x ∈ w.creatures.grid, ¬ cfg.creatures.Tagged x.guid
  gameobjects : ∀ x ∈ w.gameobjects.grid, ¬ cfg.gameobjects.Tagged x.guid

/-- The same quest relations, and the same cells of the objects tagged with positive events. -/
structure Tables.Same (o : Objects) (t t' : Tables) : Prop where
  quests : t.quests = t'.quests
  grid : ∀ x : CellGuid, o.Tagged x.guid → (x ∈ t.grid ↔ x ∈ t'.grid)

/-- The same tables. -/
structure Same (cfg : Config) (w w' : World) : Prop where
  creatures : w.creatures.Same cfg.creatures w'.creatures
  gameobjects : w.gameobjects.Same cfg.gameobjects w'.gameobjects
  data : w.data = w'.data

end ZerosCore.GameEvents
