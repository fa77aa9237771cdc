/-
# The ids that groups are stored under

`GroupMgr` of `src/server/game/Groups/GroupMgr.cpp` (`GenerateNewGroupDbStoreId`,
`RegisterGroupDbStoreId`, `FreeGroupDbStoreId`, `GetGroupByDbStoreId` and the first loop of
`LoadGroups`), with `Group::Create` and `Group::Disband` of `Group.cpp` as far as they call it.

`GroupDbStore` is a vector of pointers, here of the numbers of the groups, and
`NextGroupDbStoreId` a cursor on a free place of it.  The vector is sized for an id by
`resize(storageId + 1)`, which is `resize(0)` for the id `0xFFFFFFFF`: its place then lies outside
(`load_spec`).  And the test for an overflow compares an id with the cursor behind it, so that it
never fires: once the scan finds no free place the next id is one that is held.  While there are
free ids left the cursor is on the least one and no id is handed out twice (`group_ids_along`).
-/

import ZerosCore.Lib.Run
import Mathlib.Order.Interval.Finset.Nat

namespace ZerosCore.Groups.GroupIds

open Lib List Option

/-! ### The manager -/

structure GroupMgr where
  /-- `NULL` is `none`. -/
  groupDbStore : List (Option ℕ) := []
  nextGroupDbStoreId : ℕ := 1
  /-- `World::StopNow` was called. -/
  stopped : Bool := false

/-- `vector::resize`. -/
def resize (store : List (Option ℕ)) (n : ℕ) : List (Option ℕ) :=
  if n ≤ store.length then store.take n else store ++ List.replicate (n - store.length) none

/-- The loop of `GenerateNewGroupDbStoreId` from `i` on; the first argument is what is left up to
`0xFFFFFFFF`. -/
def scan (store : List (Option ℕ)) : ℕ → ℕ → Option ℕ
  | 0, _ => none
  | left + 1, i =>
    if (i < store.length ∧ store[i]?.join = none) ∨ store.length ≤ i then some i
    else scan store left (i + 1)

namespace GroupMgr

variable (m : GroupMgr)

def getGroupByDbStoreId (storageId : ℕ) : Option ℕ := m.groupDbStore[storageId]?.join

def generateNewGroupDbStoreId : ℕ × GroupMgr :=
  let newStorageId := m.nextGroupDbStoreId
  let start := (newStorageId + 1) % 2 ^ 32
  let next := (scan m.groupDbStore (0xFFFFFFFF - start) start).getD start
  (newStorageId,
    { m with nextGroupDbStoreId := next, stopped := m.stopped || newStorageId == next })

/-- `RegisterGroupDbStoreId`; `none` where it writes outside of the vector. -/
def registerGroupDbStoreId (storageId group : ℕ) : Option GroupMgr :=
  let store :=
    if m.groupDbStore.length % 2 ^ 32 ≤ storageId then
      resize m.groupDbStore ((storageId + 1) % 2 ^ 32)
    else m.groupDbStore
  if storageId < store.length then some { m with groupDbStore := store.set storageId (some group) }
  else none

/-- `FreeGroupDbStoreId`, of a group that is stored under the id. -/
def freeGroupDbStoreId (storageId : ℕ) : Option GroupMgr :=
  if storageId < m.groupDbStore.length then
    some { m with
      nextGroupDbStoreId :=
        if storageId < m.nextGroupDbStoreId then storageId else m.nextGroupDbStoreId
      groupDbStore := m.groupDbStore.set storageId none }
  else none

end GroupMgr

/-- A `Group` that is alive. -/
structure Group where
  number : ℕ
  dbStoreId : ℕ

structure Server where
  mgr : GroupMgr := {}
  live : List Group := []
  /-- The number of groups so far. -/
  made : ℕ := 0

def Server.register (s : Server) (mgr : GroupMgr) (storageId : ℕ) : Option Server := do
  let mgr ← mgr.registerGroupDbStoreId storageId s.made
  return ⟨mgr, ⟨s.made, storageId⟩ :: s.live, s.made + 1⟩

/-- A row of `SELECT … FROM groups … ORDER BY g.guid ASC`. -/
def Server.loadRow (s : Server) (storageId : ℕ) : Option Server := do
  let s ← s.register s.mgr storageId
  let next := s.mgr.nextGroupDbStoreId
  return { s with
    mgr := { s.mgr with
      nextGroupDbStoreId := if storageId = next then (next + 1) % 2 ^ 32 else next } }

/-- `LoadGroups` as far as the ids go, for the ids of the table in ascending order. -/
def loadGroups (stored : List ℕ) : Option Server := stored.foldlM Server.loadRow {}

inductive Op
  | create
  | disband (number : ℕ)

/-- One operation; `none` once an access was outside of the vector. -/
def step : Option Server → Op → Option Server
  | none, _ => none
  | some s, .create =>
    let (storageId, mgr) := s.mgr.generateNewGroupDbStoreId
    s.register mgr storageId
  | some s, .disband number =>
    match s.live.find? fun g => g.number = number with
    | none => some s
    | some g => do
        let mgr ← s.mgr.freeGroupDbStoreId g.dbStoreId
        return { s with mgr := mgr, live := s.live.filter fun g => g.number ≠ number }

/-! ### What is promised -/

def Server.Held (s : Server) (id : ℕ) : Prop := ∃ g ∈ s.live, g.dbStoreId = id

structure Server.Right (s : Server) : Prop where
  /-- Every live id leads to its own group. -/
  own : ∀ g ∈ s.live, s.mgr.getGroupByDbStoreId g.dbStoreId = some g.number
  /-- The cursor is not above the least free id; ids begin with `1`. -/
  least : ∀ id, 0 < id → ¬ s.Held id → s.mgr.nextGroupDbStoreId ≤ id

/-- **What an operation does right**: it stays inside the vector, an id that is handed out is not
held, and the server is right afterwards. -/
def Sound (o : Option Server) (op : Op) : Prop :=
  ∃ s, o = some s ∧ (op = .create → ¬ s.Held s.mgr.generateNewGroupDbStoreId.1) ∧
    ∃ t, step o op = some t ∧ t.Right

/-- A group is created while there are ids left for it and for the next one. -/
def Meets : Option Server → Op → Prop
  | some s, .create => s.live.length + 3 < 2 ^ 32
  | _, _ => True

/-- The store holds the live groups and nobody else, and the cursor is on the least free id. -/
structure Server.Tracked (s : Server) : Prop where
  own : ∀ g ∈ s.live, s.mgr.getGroupByDbStoreId g.dbStoreId = some g.number
  held : ∀ id, s.mgr.getGroupByDbStoreId id ≠ none → s.Held id
  fresh : ¬ s.Held s.mgr.nextGroupDbStoreId
  below : ∀ id, 0 < id → id < s.mgr.nextGroupDbStoreId → s.Held id
  length : s.mgr.groupDbStore.length < 2 ^ 32
  made : ∀ g ∈ s.live, g.number < s.made
  unique : ∀ g ∈ s.live, ∀ g' ∈ s.live, g.number = g'.number → g = g'

theorem Server.Tracked.right {s : Server} (h : s.Tracked) : s.Right := by
  refine ⟨h.own, fun id hpos hfree => ?_⟩
  by_contra hlt
  exact hfree (h.below id hpos (Nat.lt_of_not_le hlt))

/-! ### The store -/

variable {m : GroupMgr} {s : Server} {id i j left group : ℕ} {store : List (Option ℕ)}

theorem length_resize (store : List (Option ℕ)) (n : ℕ) : (resize store n).length = n := by
  rw [resize]
  split
  · rename_i h
    exact length_take_of_le h
  rw [length_append, length_replicate]
  omega

theorem join_resize {n : ℕ} (h : store.length ≤ n) (i : ℕ) :
    (resize store n)[i]?.join = store[i]?.join := by
  rw [resize]
  split
  · rw [take_of_length_le h]
  by_cases hi : i < store.length
  · rw [getElem?_append_left hi]
  have hout : store.length ≤ i := Nat.le_of_not_lt hi
  rw [getElem?_append_right hout, getElem?_eq_none hout, getElem?_replicate]
  split <;> rfl

theorem join_set (h : i < store.length) (x : Option ℕ) (j : ℕ) :
    (store.set i x)[j]?.join = if j = i then x else store[j]?.join := by
  split
  · rename_i hj
    rw [hj, getElem?_set_self h]
    rfl
  rename_i hj
  rw [getElem?_set_ne (Ne.symm hj)]

/-- **A group is registered** under every id but the last. -/
theorem register_spec (hlength : m.groupDbStore.length < 2 ^ 32) (hid : id < 2 ^ 32 - 1)
    (group : ℕ) : ∃ m', m.registerGroupDbStoreId id group = some m' ∧
      m'.nextGroupDbStoreId = m.nextGroupDbStoreId ∧ m'.groupDbStore.length < 2 ^ 32 ∧
      ∀ j, m'.getGroupByDbStoreId j = if j = id then some group else m.getGroupByDbStoreId j := by
  rw [GroupMgr.registerGroupDbStoreId, Nat.mod_eq_of_lt hlength,
    Nat.mod_eq_of_lt (show id + 1 < 2 ^ 32 by omega)]
  by_cases hin : m.groupDbStore.length ≤ id
  · have hroom : id < (resize m.groupDbStore (id + 1)).length := by
      rw [length_resize]
      exact Nat.lt_succ_self id
    rw [if_pos hin, if_pos hroom]
    refine ⟨_, rfl, rfl, ?_, fun j => ?_⟩
    · rw [length_set, length_resize]
      omega
    rw [GroupMgr.getGroupByDbStoreId, join_set hroom, join_resize (Nat.le_succ_of_le hin)]
    rfl
  have hroom := Nat.lt_of_not_le hin
  rw [if_neg hin, if_pos hroom]
  refine ⟨_, rfl, rfl, ?_, fun j => ?_⟩
  · rwa [length_set]
  rw [GroupMgr.getGroupByDbStoreId, join_set hroom]
  rfl

/-- **The last id has no place**: the vector is emptied for it. -/
theorem register_last (hlength : m.groupDbStore.length < 2 ^ 32) (group : ℕ) :
    m.registerGroupDbStoreId (2 ^ 32 - 1) group = none := by
  have hlast : m.groupDbStore.length ≤ 2 ^ 32 - 1 := by omega
  rw [GroupMgr.registerGroupDbStoreId, Nat.mod_eq_of_lt hlength, if_pos hlast, length_resize]
  exact if_neg (by omega)

theorem scan_some (h : scan store left i = some j) :
    i ≤ j ∧ store[j]?.join = none ∧ ∀ k, i ≤ k → k < j → store[k]?.join ≠ none := by
  induction left generalizing i with
  | zero => cases h
  | succ left ih =>
    rw [scan] at h
    split at h
    · rename_i hfree
      cases h
      refine ⟨Nat.le_refl _, ?_, fun k h1 h2 => absurd h2 (Nat.not_lt_of_le h1)⟩
      rcases hfree with hfree | hout
      · exact hfree.2
      rw [getElem?_eq_none hout]
      rfl
    rename_i hheld
    obtain ⟨hle, hj, hbetween⟩ := ih h
    refine ⟨Nat.le_of_succ_le hle, hj, fun k h1 h2 => ?_⟩
    rcases Nat.eq_or_lt_of_le h1 with rfl | h1
    · intro hnone
      rcases Nat.lt_or_ge i store.length with hi | hi
      · exact hheld (.inl ⟨hi, hnone⟩)
      · exact hheld (.inr hi)
    · exact hbetween k h1 h2

theorem scan_none (h : scan store left i = none) :
    ∀ k, i ≤ k → k < i + left → store[k]?.join ≠ none := by
  induction left generalizing i with
  | zero => exact fun k h1 h2 => absurd h2 (Nat.not_lt_of_le h1)
  | succ left ih =>
    rw [scan] at h
    split at h
    · cases h
    rename_i hheld
    intro k h1 h2
    rcases Nat.eq_or_lt_of_le h1 with rfl | h1
    · intro hnone
      rcases Nat.lt_or_ge i store.length with hi | hi
      · exact hheld (.inl ⟨hi, hnone⟩)
      · exact hheld (.inr hi)
    · exact ih h k h1 (by omega)

/-! ### Loading -/

variable {mgr : GroupMgr}

theorem held_cons {g : Group} {made : ℕ} :
    Server.Held ⟨mgr, g :: s.live, made⟩ id ↔ id = g.dbStoreId ∨ s.Held id := by
  constructor
  · rintro ⟨g', hg', rfl⟩
    rcases mem_cons.mp hg' with rfl | hold
    · exact .inl rfl
    · exact .inr ⟨g', hold, rfl⟩
  rintro (rfl | ⟨g', hg', rfl⟩)
  · exact ⟨g, mem_cons_self, rfl⟩
  · exact ⟨g', mem_cons_of_mem _ hg', rfl⟩

theorem Server.Tracked.register (h : s.Tracked) (hfree : ¬ s.Held id) {mgr' : GroupMgr}
    (hget : ∀ j, mgr'.getGroupByDbStoreId j =
      if j = id then some s.made else mgr.getGroupByDbStoreId j)
    (hstore : mgr.groupDbStore = s.mgr.groupDbStore) (hlength : mgr'.groupDbStore.length < 2 ^ 32)
    (hfresh : mgr'.nextGroupDbStoreId ≠ id ∧ ¬ s.Held mgr'.nextGroupDbStoreId)
    (hbelow : ∀ j, 0 < j → j < mgr'.nextGroupDbStoreId → j = id ∨ s.Held j) :
    Server.Tracked ⟨mgr', ⟨s.made, id⟩ :: s.live, s.made + 1⟩ := by
  have hsame (j : ℕ) : mgr.getGroupByDbStoreId j = s.mgr.getGroupByDbStoreId j := by
    rw [GroupMgr.getGroupByDbStoreId, hstore]
    rfl
  refine ⟨fun g hg => ?_, fun j hj => ?_, ?_, fun j hpos hj => ?_, hlength, fun g hg => ?_,
    fun g hg g' hg' heq => ?_⟩
  · rw [hget]
    rcases mem_cons.mp hg with rfl | hold
    · exact if_pos rfl
    rw [if_neg fun heq => hfree ⟨g, hold, heq⟩, hsame]
    exact h.own g hold
  · rw [hget] at hj
    rw [held_cons]
    split at hj
    · rename_i heq
      exact .inl heq
    rw [hsame] at hj
    exact .inr (h.held j hj)
  · rw [held_cons, not_or]
    exact hfresh
  · rw [held_cons]
    exact hbelow j hpos hj
  · rcases mem_cons.mp hg with rfl | hold
    · exact Nat.lt_succ_self _
    · exact Nat.lt_succ_of_lt (h.made g hold)
  rcases mem_cons.mp hg with rfl | hold
  · rcases mem_cons.mp hg' with rfl | hold'
    · rfl
    · exact absurd heq.symm (Nat.ne_of_lt (h.made g' hold'))
  rcases mem_cons.mp hg' with rfl | hold'
  · exact absurd heq (Nat.ne_of_lt (h.made g hold))
  · exact h.unique g hold g' hold' heq

theorem Server.Tracked.loadRow (h : s.Tracked) (hafter : ∀ j, s.Held j → j < id)
    (hid : id < 2 ^ 32 - 1) : ∃ t, s.loadRow id = some t ∧ t.Tracked ∧ ∀ j, t.Held j → j ≤ id := by
  obtain ⟨m', hm', hnext, hlength, hget⟩ := register_spec h.length hid s.made
  have hfree : ¬ s.Held id := fun hheld => Nat.lt_irrefl id (hafter id hheld)
  refine ⟨_, by rw [Server.loadRow, Server.register, hm']; rfl, ?_, fun j hj => ?_⟩
  · refine h.register hfree hget rfl hlength ?_ fun j hpos hj => ?_
    · dsimp only
      rw [hnext]
      split
      · rename_i heq
        refine ⟨by omega, fun hheld => ?_⟩
        have hlt := hafter _ hheld
        omega
      rename_i hne
      exact ⟨Ne.symm hne, h.fresh⟩
    dsimp only at hj
    rw [hnext] at hj
    split at hj
    · rename_i heq
      rw [Nat.mod_eq_of_lt (by omega)] at hj
      rcases Nat.lt_succ_iff_lt_or_eq.mp hj with hj | hj
      · exact .inr (h.below j hpos hj)
      · exact .inl (hj.trans heq.symm)
    · exact .inr (h.below j hpos hj)
  rcases held_cons.mp hj with rfl | hold
  · exact Nat.le_refl _
  · exact Nat.le_of_lt (hafter j hold)

variable {stored : List ℕ}

/-- **Loading**, row after row, until the last id comes up. -/
theorem Server.Tracked.load (h : s.Tracked) (hsorted : stored.Pairwise (· < ·))
    (hafter : ∀ j, s.Held j → ∀ id ∈ stored, j < id) (hrange : ∀ id ∈ stored, id < 2 ^ 32) :
    ((∀ id ∈ stored, id < 2 ^ 32 - 1) ∧ ∃ t, stored.foldlM Server.loadRow s = some t ∧ t.Tracked) ∨
      ¬ (∀ id ∈ stored, id < 2 ^ 32 - 1) ∧ stored.foldlM Server.loadRow s = none := by
  induction stored generalizing s with
  | nil => exact .inl ⟨nofun, s, rfl, h⟩
  | cons id stored ih =>
    obtain ⟨hfirst, hsorted⟩ := pairwise_cons.mp hsorted
    rw [foldlM_cons, forall_mem_cons]
    by_cases hid : id < 2 ^ 32 - 1
    · obtain ⟨t, ht, htracked, hheld⟩ :=
        h.loadRow (fun j hj => hafter j hj id mem_cons_self) hid
      have hlater (j : ℕ) (hj : t.Held j) (id' : ℕ) (hid' : id' ∈ stored) : j < id' :=
        Nat.lt_of_le_of_lt (hheld j hj) (hfirst id' hid')
      have hrest := ih htracked hsorted hlater fun id' hid' =>
        hrange id' (mem_cons_of_mem _ hid')
      rw [ht]
      rcases hrest with ⟨hall, hsome⟩ | ⟨hall, hnone⟩
      · exact .inl ⟨⟨hid, hall⟩, hsome⟩
      · exact .inr ⟨fun hboth => hall hboth.2, hnone⟩
    have hlast : id = 2 ^ 32 - 1 := by
      have hlt := hrange id mem_cons_self
      omega
    refine .inr ⟨fun hboth => hid hboth.1, ?_⟩
    rw [hlast, Server.loadRow, Server.register, register_last h.length]
    rfl

theorem tracked_empty : Server.Tracked {} where
  own _ hg := nomatch hg
  held _ hid := absurd rfl hid
  fresh h := by
    obtain ⟨g, hg, -⟩ := h
    cases hg
  below id hpos hid := by
    have hlt : id < 1 := hid
    omega
  length := by decide
  made _ hg := nomatch hg
  unique _ hg := nomatch hg

/-- **When loading stays inside the vector**: the last id is not stored. -/
theorem load_spec (hsorted : stored.Pairwise (· < ·)) (hrange : ∀ id ∈ stored, id < 2 ^ 32) :
    ((∀ id ∈ stored, id < 2 ^ 32 - 1) ∧ ∃ t, loadGroups stored = some t ∧ t.Tracked) ∨
      ¬ (∀ id ∈ stored, id < 2 ^ 32 - 1) ∧ loadGroups stored = none := by
  refine tracked_empty.load hsorted (fun j hj => ?_) hrange
  obtain ⟨g, hg, -⟩ := hj
  cases hg

/-! ### Running -/

theorem card_le_of_held {ids : Finset ℕ} (h : ∀ id ∈ ids, s.Held id) :
    ids.card ≤ s.live.length := by
  have hsub : ids ⊆ (s.live.map Group.dbStoreId).toFinset := by
    intro id hid
    obtain ⟨g, hg, rfl⟩ := h id hid
    exact mem_toFinset.mpr (mem_map.mpr ⟨g, hg, rfl⟩)
  calc ids.card ≤ (s.live.map Group.dbStoreId).toFinset.card := Finset.card_le_card hsub
    _ ≤ (s.live.map Group.dbStoreId).length := toFinset_card_le _
    _ = s.live.length := length_map _

/-- **The cursor goes on** to the next free id, while there is one. -/
theorem Server.Tracked.generate (h : s.Tracked) (hroom : s.live.length + 3 < 2 ^ 32) :
    s.mgr.nextGroupDbStoreId < 2 ^ 32 - 1 ∧
      s.mgr.generateNewGroupDbStoreId.1 = s.mgr.nextGroupDbStoreId ∧
      s.mgr.generateNewGroupDbStoreId.2.groupDbStore = s.mgr.groupDbStore ∧
      s.mgr.nextGroupDbStoreId < s.mgr.generateNewGroupDbStoreId.2.nextGroupDbStoreId ∧
      ¬ s.Held s.mgr.generateNewGroupDbStoreId.2.nextGroupDbStoreId ∧
      ∀ j, 0 < j → j < s.mgr.generateNewGroupDbStoreId.2.nextGroupDbStoreId →
        j = s.mgr.nextGroupDbStoreId ∨ s.Held j := by
  have hcursor : s.mgr.nextGroupDbStoreId ≤ s.live.length + 1 := by
    have hcard : (Finset.Ico 1 s.mgr.nextGroupDbStoreId).card ≤ s.live.length :=
      card_le_of_held fun id hid => by
        obtain ⟨hpos, hlt⟩ := Finset.mem_Ico.mp hid
        exact h.below id hpos hlt
    rw [Nat.card_Ico] at hcard
    omega
  have hstart : (s.mgr.nextGroupDbStoreId + 1) % 2 ^ 32 = s.mgr.nextGroupDbStoreId + 1 :=
    Nat.mod_eq_of_lt (by omega)
  refine ⟨by omega, rfl, rfl, ?_⟩
  simp only [GroupMgr.generateNewGroupDbStoreId, hstart]
  have hbelow (j : ℕ) (hpos : 0 < j) (hj : j < s.mgr.nextGroupDbStoreId + 1) :
      j = s.mgr.nextGroupDbStoreId ∨ s.Held j := by
    rcases Nat.lt_succ_iff_lt_or_eq.mp hj with hj | hj
    · exact .inr (h.below j hpos hj)
    · exact .inl hj
  cases hscan : scan s.mgr.groupDbStore (0xFFFFFFFF - (s.mgr.nextGroupDbStoreId + 1))
      (s.mgr.nextGroupDbStoreId + 1) with
  | some next =>
    obtain ⟨hle, hfree, hbetween⟩ := scan_some hscan
    refine ⟨hle, fun hheld => ?_, fun j hpos hj => ?_⟩
    · obtain ⟨g, hg, rfl⟩ := hheld
      have hown := h.own g hg
      rw [GroupMgr.getGroupByDbStoreId, hfree] at hown
      cases hown
    rcases Nat.lt_or_ge j (s.mgr.nextGroupDbStoreId + 1) with hlt | hge
    · exact hbelow j hpos hlt
    · exact .inr (h.held j (hbetween j hge hj))
  | none =>
    -- every id but the one at the cursor would be held
    have hcard : ((Finset.Ico 1 0xFFFFFFFF).erase s.mgr.nextGroupDbStoreId).card ≤
        s.live.length := by
      refine card_le_of_held fun id hid => ?_
      obtain ⟨hne, hid⟩ := Finset.mem_erase.mp hid
      obtain ⟨hpos, hlt⟩ := Finset.mem_Ico.mp hid
      rcases Nat.lt_or_ge id (s.mgr.nextGroupDbStoreId + 1) with hbefore | hge
      · exact (hbelow id hpos hbefore).resolve_left hne
      · exact h.held id (scan_none hscan id hge (by omega))
    have herase := Finset.pred_card_le_card_erase
      (s := Finset.Ico 1 0xFFFFFFFF) (a := s.mgr.nextGroupDbStoreId)
    rw [Nat.card_Ico] at herase
    omega

theorem Server.Tracked.create (h : s.Tracked) (hroom : s.live.length + 3 < 2 ^ 32) :
    ¬ s.Held s.mgr.generateNewGroupDbStoreId.1 ∧
      ∃ t, step (some s) .create = some t ∧ t.Tracked := by
  obtain ⟨hlt, hid, hstore, hnext, hfresh, hbelow⟩ := h.generate hroom
  have hlength : s.mgr.generateNewGroupDbStoreId.2.groupDbStore.length < 2 ^ 32 := by
    exact h.length
  obtain ⟨m', hm', hcursor, hlength, hget⟩ := register_spec hlength hlt s.made
  rw [← hcursor] at hnext hfresh hbelow
  have htracked := h.register h.fresh hget hstore hlength ⟨Nat.ne_of_gt hnext, hfresh⟩ hbelow
  refine ⟨by rw [hid]; exact h.fresh, _, ?_, htracked⟩
  rw [step]
  dsimp only
  rw [Server.register, hid, hm']
  rfl

theorem Server.Tracked.disband (h : s.Tracked) (number : ℕ) :
    ∃ t, step (some s) (.disband number) = some t ∧ t.Tracked := by
  rw [step]
  cases hfind : s.live.find? fun g => g.number = number with
  | none => exact ⟨s, rfl, h⟩
  | some g =>
    have hg := mem_of_find?_eq_some hfind
    have hfound := find?_some hfind
    have hnumber : g.number = number := of_decide_eq_true hfound
    have hown := h.own g hg
    have hin : g.dbStoreId < s.mgr.groupDbStore.length := by
      by_contra hout
      rw [GroupMgr.getGroupByDbStoreId, getElem?_eq_none (Nat.le_of_not_lt hout)] at hown
      cases hown
    have hheld (mgr : GroupMgr) (id : ℕ) :
        Server.Held { s with mgr := mgr, live := s.live.filter fun g => g.number ≠ number } id ↔
          s.Held id ∧ id ≠ g.dbStoreId := by
      constructor
      · rintro ⟨g', hg', rfl⟩
        obtain ⟨hmem, hne⟩ := mem_filter.mp hg'
        refine ⟨⟨g', hmem, rfl⟩, fun heq => of_decide_eq_true hne ?_⟩
        have hown' := h.own g' hmem
        rw [heq, hown, some.injEq] at hown'
        exact hown'.symm.trans hnumber
      rintro ⟨⟨g', hg', rfl⟩, hne⟩
      refine ⟨g', mem_filter.mpr ⟨hg', decide_eq_true fun heq => hne ?_⟩, rfl⟩
      rw [h.unique g' hg' g hg (heq.trans hnumber.symm)]
    refine ⟨_, by dsimp only; rw [GroupMgr.freeGroupDbStoreId, if_pos hin]; rfl, ?_⟩
    have hget (j : ℕ) (next : ℕ) : GroupMgr.getGroupByDbStoreId { s.mgr with
        nextGroupDbStoreId := next, groupDbStore := s.mgr.groupDbStore.set g.dbStoreId none } j =
        if j = g.dbStoreId then none else s.mgr.getGroupByDbStoreId j := by
      rw [GroupMgr.getGroupByDbStoreId, join_set hin]
      rfl
    refine ⟨fun g' hg' => ?_, fun j hj => ?_, ?_, fun j hpos hj => ?_, ?_, fun g' hg' => ?_,
      fun g1 h1 g2 h2 heq => ?_⟩
    · have hne := ((hheld s.mgr g'.dbStoreId).mp ⟨g', hg', rfl⟩).2
      exact (hget _ _).trans ((if_neg hne).trans (h.own g' (mem_filter.mp hg').1))
    · rw [hget] at hj
      split at hj
      · exact absurd rfl hj
      rename_i hne
      exact (hheld _ j).mpr ⟨h.held j hj, hne⟩
    · rw [hheld, not_and_not_right]
      split
      · exact fun _ => rfl
      · exact fun hheld => absurd hheld h.fresh
    · rw [hheld]
      dsimp only at hj
      split at hj
      · exact ⟨h.below j hpos (by omega), Nat.ne_of_lt hj⟩
      · exact ⟨h.below j hpos hj, by omega⟩
    · rw [length_set]
      exact h.length
    · exact h.made g' (mem_filter.mp hg').1
    · exact h.unique g1 (mem_filter.mp h1).1 g2 (mem_filter.mp h2).1 heq

/-! ### Runs -/

def Up (o : Option Server) : Prop := ∃ s, o = some s ∧ s.Tracked

variable {o : Option Server} {op : Op}

theorem up_step (h : Up o) (hop : Meets o op) : Up (step o op) := by
  obtain ⟨s, rfl, hs⟩ := h
  cases op with
  | create =>
    obtain ⟨-, t, ht, htracked⟩ := hs.create hop
    exact ⟨t, ht, htracked⟩
  | disband number => exact hs.disband number

theorem sound_of_up (h : Up o) (hop : Meets o op) : Sound o op := by
  obtain ⟨s, rfl, hs⟩ := h
  cases op with
  | create =>
    obtain ⟨hfree, t, ht, htracked⟩ := hs.create hop
    exact ⟨s, rfl, fun _ => hfree, t, ht, htracked.right⟩
  | disband number =>
    obtain ⟨t, ht, htracked⟩ := hs.disband number
    exact ⟨s, rfl, nofun, t, ht, htracked.right⟩

/-- **The ids of groups.**  Loading stays inside the vector exactly when the last id is not
stored, and then every run in which groups are created while there are ids left is sound. -/
theorem group_ids_along {stored : List ℕ} (hsorted : stored.Pairwise (· < ·))
    (hrange : ∀ id ∈ stored, id < 2 ^ 32) :
    ((∃ s, loadGroups stored = some s ∧ s.Right) ↔ ∀ id ∈ stored, id < 2 ^ 32 - 1) ∧
      ((∀ id ∈ stored, id < 2 ^ 32 - 1) → ∀ ops, Along step Meets (loadGroups stored) ops →
        Along step Sound (loadGroups stored) ops) := by
  rcases load_spec hsorted hrange with ⟨hall, s, hload, htracked⟩ | ⟨hlast, hload⟩
  · refine ⟨iff_of_true ⟨s, hload, htracked.right⟩ hall, fun _ ops hops => ?_⟩
    exact Along.of_invariant (I := Up) (fun _ _ => up_step) (fun _ _ => sound_of_up)
      ⟨s, hload, htracked⟩ hops
  refine ⟨iff_of_false ?_ hlast, fun hall => absurd hall hlast⟩
  rintro ⟨s, hsome, -⟩
  rw [hload] at hsome
  cases hsome

/-- `group_ids_along` for the ids `1`, `2` and `4`: two groups are created and one is disbanded. -/
theorem group_ids_along_three :
    Along step Sound (loadGroups [1, 2, 4]) [.create, .disband 0, .create] :=
  (group_ids_along (by decide) (by decide)).2 (by decide) _
    ⟨by show _ < _; decide, trivial, by show _ < _; decide, trivial⟩

/-- **The place of the last id lies outside of the vector.** -/
theorem last_id_outside : ¬ ∃ s, loadGroups [0xFFFFFFFF] = some s ∧ s.Right := by
  have hnone : (loadGroups [0xFFFFFFFF]).isNone := by decide
  rintro ⟨s, hs, -⟩
  rw [hs] at hnone
  cases hnone

end ZerosCore.Groups.GroupIds
