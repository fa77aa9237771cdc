/-
# Pools of creatures, game objects and pools

`PoolMgr`, `PoolGroup` and `ActivePoolData` of `src/server/game/Pools/PoolMgr.cpp` and
`PoolMgr.h`: the loading of the pools, and what spawns and despawns their members.

The three kinds of members share one set of templates, and here one set of definitions with
the kind as a parameter.  A member that is a pool is spawned and despawned with everything
in it; the code recurses into it, and here a number bounds how deep.

The chances are floating-point numbers; only whether one is zero matters for the groups, and
what `RollOne` makes of them is left to the draw: it says after which entries the roll is
used up.  Quests, events, the objects in the world and the database are left out, and a pool
has fewer than `2 ^ 32` members.
-/

import Mathlib.Data.List.Basic
import Mathlib.Algebra.Order.Ring.Int

namespace ZerosCore.Pools

inductive Kind where
  | creature
  | gameobject
  | pool
deriving DecidableEq

/-- A row of `pool_creature`, `pool_gameobject` or `pool_pool`, and whether its chance is
other than zero. -/
structure Row where
  guid : ℕ
  poolId : ℕ
  chanced : Bool

/-- `PoolGroup`, without the chances. -/
structure PoolGroup where
  explicitlyChanced : List ℕ
  equalChanced : List ℕ

namespace PoolGroup

def isEmpty (group : PoolGroup) : Bool :=
  group.explicitlyChanced.isEmpty && group.equalChanced.isEmpty

def addEntry (group : PoolGroup) (row : Row) (maxEntries : ℕ) : PoolGroup :=
  if row.chanced ∧ maxEntries = 1 then
    { group with explicitlyChanced := group.explicitlyChanced ++ [row.guid] }
  else { group with equalChanced := group.equalChanced ++ [row.guid] }

def removeOneRelation (group : PoolGroup) (child : ℕ) : PoolGroup where
  explicitlyChanced := group.explicitlyChanced.erase child
  equalChanced := group.equalChanced.erase child

def members (group : PoolGroup) : List ℕ := group.equalChanced ++ group.explicitlyChanced

end PoolGroup

/-- `PoolMgr` without its dynamic data: `limit` are the pool templates, and `search` the maps
from a member to its pool. -/
structure PoolMgr where
  maxPoolId : ℕ
  limit : ℕ → ℕ
  groups : Kind → ℕ → PoolGroup
  search : Kind → ℕ → Option ℕ

namespace PoolMgr

/-- The pools without members. -/
def templates (maxPoolId : ℕ) (limit : ℕ → ℕ) : PoolMgr where
  maxPoolId := maxPoolId
  limit := limit
  groups := fun _ _ => ⟨[], []⟩
  search := fun _ _ => none

/-- A row of a table: a row out of range, or for a pool in itself, is skipped, and the search
map keeps the first pool of a member. -/
def addRow (kind : Kind) (c : PoolMgr) (row : Row) : PoolMgr :=
  if row.poolId > c.maxPoolId then c
  else if kind = .pool ∧ (row.guid > c.maxPoolId ∨ row.poolId = row.guid) then c
  else
    { c with
      groups := fun k p =>
        if k = kind ∧ p = row.poolId then (c.groups k p).addEntry row (c.limit p)
        else c.groups k p
      search := fun k g =>
        if k = kind ∧ g = row.guid ∧ c.search k g = none then some row.poolId else c.search k g }

/-- The walk from a pool to the pools it is in, up to the link that closes a circle. -/
def walk (search : ℕ → Option ℕ) : ℕ → List ℕ → ℕ → Option (ℕ × ℕ)
  | 0, _, _ => none
  | n + 1, checkedPools, p =>
    match search p with
    | none => none
    | some mother =>
      if mother ∈ p :: checkedPools then some (p, mother)
      else walk search n (p :: checkedPools) mother

def removeLink (c : PoolMgr) (child mother : ℕ) : PoolMgr :=
  { c with
    groups := fun k p =>
      if k = .pool ∧ p = mother then (c.groups k p).removeOneRelation child else c.groups k p
    search := fun k g => if k = .pool ∧ g = child then none else c.search k g }

/-- The check for a circular reference, from one pool. -/
def checkCircle (c : PoolMgr) (i : ℕ) : PoolMgr :=
  match walk (c.search .pool) (c.maxPoolId + 2) [] i with
  | none => c
  | some (child, mother) => c.removeLink child mother

/-- `PoolMgr::LoadFromDB`; the rows are those whose creature or lootable game object exists
and whose chance is in range. -/
def loadFromDB (maxPoolId : ℕ) (limit : ℕ → ℕ) (creatures gameobjects pools : List Row) :
    PoolMgr :=
  let c := creatures.foldl (addRow .creature) (templates maxPoolId limit)
  let c := gameobjects.foldl (addRow .gameobject) c
  let c := pools.foldl (addRow .pool) c
  (List.range maxPoolId).foldl checkCircle c

def members (c : PoolMgr) (kind : Kind) (p : ℕ) : List ℕ := (c.groups kind p).members

end PoolMgr

/-- A draw: after which of the explicitly chanced entries the roll is used up, and an index
for the equally chanced ones. -/
structure Draw where
  below : ℕ → Bool
  index : ℕ

/-- `ActivePoolData`, and how many draws were made. -/
structure ActivePoolData where
  spawnedCreatures : ℕ → Bool
  spawnedGameobjects : ℕ → Bool
  spawnedPools : ℕ → Option ℕ
  drawn : ℕ

namespace ActivePoolData

/-- Nothing is spawned. -/
def empty : ActivePoolData := ⟨fun _ => false, fun _ => false, fun _ => none, 0⟩

def getActiveObjectCount (s : ActivePoolData) (p : ℕ) : ℕ := (s.spawnedPools p).getD 0

def isActiveObject (s : ActivePoolData) : Kind → ℕ → Bool
  | .creature, guid => s.spawnedCreatures guid
  | .gameobject, guid => s.spawnedGameobjects guid
  | .pool, guid => (s.spawnedPools guid).isSome

/-- The counter of a pool is changed; it comes into being if it was not there. -/
def setCount (s : ActivePoolData) (p : ℕ) (f : ℕ → ℕ) : ActivePoolData :=
  { s with
    spawnedPools := fun q => if q = p then some (f (s.getActiveObjectCount p))
      else s.spawnedPools q }

/-- A member is marked, a pool with a counter of its own. -/
def mark (s : ActivePoolData) (kind : Kind) (guid : ℕ) (on : Bool) : ActivePoolData :=
  match kind with
  | .creature =>
    { s with spawnedCreatures := fun g => if g = guid then on else s.spawnedCreatures g }
  | .gameobject =>
    { s with spawnedGameobjects := fun g => if g = guid then on else s.spawnedGameobjects g }
  | .pool =>
    { s with
      spawnedPools := fun g => if g = guid then (if on then some 0 else none)
        else s.spawnedPools g }

def activateObject (s : ActivePoolData) (kind : Kind) (guid p : ℕ) : ActivePoolData :=
  (s.mark kind guid true).setCount p fun n => n + 1

def removeObject (s : ActivePoolData) (kind : Kind) (guid p : ℕ) : ActivePoolData :=
  (s.mark kind guid false).setCount p fun n => n - 1

end ActivePoolData

namespace PoolMgr

open ActivePoolData

section

variable (c : PoolMgr) (draws : ℕ → Draw)

/-- The loop of `RollOne` over the explicitly chanced entries. -/
def rollExplicit (kind : Kind) (p triggerFrom : ℕ) (s : ActivePoolData) : Option ℕ :=
  ((c.groups kind p).explicitlyChanced.zipIdx.find? fun e =>
    (draws s.drawn).below e.2 && (e.1 == triggerFrom || !s.isActiveObject kind e.1)).map Prod.fst

/-- The end of `RollOne`, over the equally chanced entries. -/
def rollEqual (kind : Kind) (p triggerFrom : ℕ) (s : ActivePoolData) : Option ℕ :=
  let entries := (c.groups kind p).equalChanced
  match entries[(draws s.drawn).index % entries.length]? with
  | none => none
  | some g => if g = triggerFrom ∨ s.isActiveObject kind g = false then some g else none

def draw (entries : List ℕ) (s : ActivePoolData) : ActivePoolData :=
  if entries.isEmpty then s else { s with drawn := s.drawn + 1 }

def rollOne (kind : Kind) (p triggerFrom : ℕ) (s : ActivePoolData) : Option ℕ × ActivePoolData :=
  let t := draw (c.groups kind p).explicitlyChanced s
  match c.rollExplicit draws kind p triggerFrom s with
  | some g => (some g, t)
  | none => (c.rollEqual draws kind p triggerFrom t, draw (c.groups kind p).equalChanced t)

/-- `PoolGroup::DespawnObject`; `despawn1` is `Despawn1Object`, and guid `0` stands for all
members. -/
def despawnObject (despawn1 : ℕ → ActivePoolData → ActivePoolData) (kind : Kind) (p guid : ℕ)
    (s : ActivePoolData) : ActivePoolData :=
  (c.members kind p).foldl
    (fun s g =>
      if s.isActiveObject kind g ∧ (guid = 0 ∨ g = guid) then
        (despawn1 g s).removeObject kind g p
      else s)
    s

/-- The loop of `PoolGroup::SpawnObject`, with what is left of its count; `spawn1` is
`Spawn1Object`. -/
def spawnLoop (spawn1 despawn1 : ℕ → ActivePoolData → ActivePoolData) (kind : Kind) (p : ℕ) :
    ℕ → ℕ → ℕ → ActivePoolData → ActivePoolData
  | 0, _, _, s => s
  | n + 1, triggerFrom, lastDespawned, s =>
    match c.rollOne draws kind p triggerFrom s with
    | (none, s) => spawnLoop spawn1 despawn1 kind p n triggerFrom lastDespawned s
    | (some g, s) =>
      if g = lastDespawned then
        spawnLoop spawn1 despawn1 kind p n triggerFrom lastDespawned s
      else if g = triggerFrom then spawnLoop spawn1 despawn1 kind p n 0 lastDespawned s
      else
        let s := spawn1 g (s.activateObject kind g p)
        if triggerFrom ≠ 0 then
          spawnLoop spawn1 despawn1 kind p n 0 triggerFrom
            (c.despawnObject despawn1 kind p triggerFrom s)
        else spawnLoop spawn1 despawn1 kind p n triggerFrom lastDespawned s

/-- How often `SpawnObject` tries: a difference of unsigned numbers taken as a signed one, and
one more for an object that triggers. -/
def spawnCount (p triggerFrom : ℕ) (s : ActivePoolData) : ℕ :=
  (((c.limit p : ℤ) - s.getActiveObjectCount p).bmod (2 ^ 32) +
    if triggerFrom ≠ 0 then 1 else 0).toNat

def spawnObject (spawn1 despawn1 : ℕ → ActivePoolData → ActivePoolData) (kind : Kind)
    (p triggerFrom : ℕ) (s : ActivePoolData) : ActivePoolData :=
  c.spawnLoop draws spawn1 despawn1 kind p (c.spawnCount p triggerFrom s) triggerFrom 0 s

/-- What is done with a member that is a pool; creatures and game objects change no
counters. -/
def forPool (kind : Kind) (f : ℕ → ActivePoolData → ActivePoolData) (g : ℕ)
    (s : ActivePoolData) : ActivePoolData :=
  if kind = .pool then f g s else s

def despawnPool : ℕ → ℕ → ActivePoolData → ActivePoolData
  | 0, _, s => s
  | n + 1, p, s =>
    [Kind.creature, .gameobject, .pool].foldl
      (fun s kind =>
        if (c.groups kind p).isEmpty then s
        else c.despawnObject (forPool kind (despawnPool n)) kind p 0 s)
      s

/-- `PoolMgr::SpawnPool<T>`. -/
def spawnMembers (spawn1 despawn1 : ℕ → ActivePoolData → ActivePoolData) (p triggerFrom : ℕ)
    (s : ActivePoolData) (kind : Kind) : ActivePoolData :=
  if (c.groups kind p).isEmpty then s
  else c.spawnObject draws (forPool kind spawn1) (forPool kind despawn1) kind p triggerFrom s

def spawnPool : ℕ → ℕ → ActivePoolData → ActivePoolData
  | 0, _, s => s
  | n + 1, p, s =>
    [Kind.pool, .gameobject, .creature].foldl
      (c.spawnMembers draws (spawnPool n) (c.despawnPool n) p 0) s

/-- The depth that is enough for the pools in pools. -/
def deep : ℕ := c.maxPoolId + 1

def updatePool (kind : Kind) (p guid : ℕ) (s : ActivePoolData) : ActivePoolData :=
  let mother := (c.search .pool p).getD 0
  if mother ≠ 0 then
    c.spawnMembers draws (c.spawnPool draws c.deep) (c.despawnPool c.deep) mother p s .pool
  else c.spawnMembers draws (c.spawnPool draws c.deep) (c.despawnPool c.deep) p guid s kind

end

end PoolMgr

inductive Request where
  | spawnPool (p : ℕ)
  | despawnPool (p : ℕ)
  /-- A spawned member is ready to respawn. -/
  | update (kind : Kind) (guid : ℕ)

/-- Serves a request: pools that are in no other are spawned and despawned, and a spawned
member updates the pool it is in. -/
def step (c : PoolMgr) (draws : ℕ → Draw) (s : ActivePoolData) : Request → ActivePoolData
  | .spawnPool p =>
    if p ≤ c.maxPoolId ∧ c.search .pool p = none then c.spawnPool draws c.deep p s else s
  | .despawnPool p =>
    if p ≤ c.maxPoolId ∧ c.search .pool p = none then c.despawnPool c.deep p s else s
  | .update kind guid =>
    let p := (c.search kind guid).getD 0
    if p ≠ 0 ∧ s.isActiveObject kind guid then c.updatePool draws kind p guid s else s

end ZerosCore.Pools
