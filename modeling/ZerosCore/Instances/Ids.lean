/-
# Instance ids

`src/server/game/Maps/MapManager.cpp` (`InitInstanceIds`, `RegisterInstanceId`,
`GenerateInstanceId`, `FreeInstanceId`) and the loading loop of
`InstanceSaveManager::LoadResetTimes`
(`src/server/game/Instances/InstanceSaveMgr.cpp`).

The ids in use are the set bits of a `vector<bool>`, and `_nextInstanceId` is a cursor
on a free one.  The vector is sized in multiples of 32 so as to end *behind* the id it
is sized for, but an id that is a multiple of 32 itself is rounded to itself: it lies
one past the end (`load_isSome_iff`, `Roomy`).  Where that does not happen the cursor
is on the least free id and no id is handed out twice (`ids_along`).
-/

import Mathlib.Data.List.Sort
import Mathlib.Data.Finset.Lattice.Lemmas
import Mathlib.Data.Finset.Erase
import Mathlib.Tactic.Linarith
import ZerosCore.Lib.Run

namespace ZerosCore.MapManager

open Lib List Option

/-! ### The vector of bits -/

/-- A `std::vector<bool>`. -/
structure BitVector where
  bits : List Bool := []
  capacity : ℕ := 0

/-- How far a vector that runs out of capacity grows, from its size and the size asked
for. -/
abbrev Growth := ℕ → ℕ → ℕ

/-- The growth of libstdc++ on 64-bit words: the size is at least doubled. -/
def wordGrowth : Growth := fun size n => (size + max size (n - size) + 63) / 64 * 64

namespace BitVector

variable (v : BitVector)

def size : ℕ := v.bits.length

def resize (grow : Growth) (n : ℕ) : BitVector where
  bits := if n ≤ v.size then v.bits.take n else v.bits ++ List.replicate (n - v.size) false
  capacity := if n ≤ v.capacity then v.capacity else grow v.size n

/-- A write through `operator[]`; `none` behind the end, where it is undefined. -/
def set (i : ℕ) (b : Bool) : Option BitVector :=
  if i < v.size then some { v with bits := v.bits.set i b } else none

def has (i : ℕ) : Bool := v.bits[i]?.getD false

end BitVector

/-! ### The manager -/

/-- `MapManager`, its instance ids. -/
structure Ids where
  instanceIds : BitVector := {}
  nextInstanceId : ℕ := 1
  /-- `World::StopNow` was called. -/
  stopped : Bool := false

/-- `(id / 32) * 32 + (id % 32 > 0 ? 32 : 0)`, a `uint32`. -/
def roundUp (id : ℕ) : ℕ := (id / 32 * 32 + if id % 32 > 0 then 32 else 0) % 2 ^ 32

/-- `InitInstanceIds`, with the result of `SELECT MAX(id)`. -/
def initInstanceIds (grow : Growth) (maxId : ℕ) : Ids where
  instanceIds := ({} : BitVector).resize grow (roundUp maxId)
  nextInstanceId := 1

namespace Ids

variable (m : Ids)

def registerInstanceId (id : ℕ) : Option Ids := do
  let ids ← m.instanceIds.set id true
  return { m with instanceIds := ids }

/-- A row of `SELECT id … ORDER BY id ASC` in `LoadResetTimes`. -/
def loadRow (id : ℕ) : Option Ids :=
  if m.nextInstanceId = id then { m with nextInstanceId := (id + 1) % 2 ^ 32 }.registerInstanceId id
  else m.registerInstanceId id

/-- The loop of `GenerateInstanceId` from `i` on: the first id that is not in use.
The first argument is what is left up to `0xFFFFFFFF`. -/
def scan (v : BitVector) : ℕ → ℕ → Option ℕ
  | 0, _ => none
  | left + 1, i => if (i < v.size ∧ ¬ v.has i) ∨ i ≥ v.size then some i else scan v left (i + 1)

/-- The cursor after `GenerateInstanceId`. -/
def advance : ℕ :=
  let start := (m.nextInstanceId + 1) % 2 ^ 32
  (scan m.instanceIds (0xFFFFFFFF - start) start).getD start

/-- `Allocate space if necessary`. -/
def allocate (grow : Growth) (newId : ℕ) : BitVector :=
  let v := m.instanceIds
  if newId ≥ v.size % 2 ^ 32 then
    if v.size < v.capacity then v.resize grow v.capacity else v.resize grow (roundUp newId)
  else v

def generateInstanceId (grow : Growth) : Option (ℕ × Ids) := do
  let newId := m.nextInstanceId
  let next := m.advance
  let ids ← (m.allocate grow newId).set newId true
  return (newId, { instanceIds := ids, nextInstanceId := next,
                   stopped := m.stopped || newId = next })

def freeInstanceId (id : ℕ) : Option Ids := do
  let next := if id < m.nextInstanceId then id else m.nextInstanceId
  let ids ← m.instanceIds.set id false
  return { m with instanceIds := ids, nextInstanceId := next }

end Ids

/-- `LoadInstances` as far as the ids go, for the ids of the table in ascending order. -/
def loadInstances (grow : Growth) (stored : List ℕ) : Option Ids :=
  stored.foldlM Ids.loadRow (initInstanceIds grow (stored.max?.getD 0))

/-! ### Bits -/

namespace BitVector

variable {v v' : BitVector} {i j n : ℕ} {b : Bool} {grow : Growth}

theorem lt_of_has (h : v.has i = true) : i < v.size := by
  unfold has at h
  by_contra hlt
  rw [getElem?_eq_none (not_lt.mp hlt)] at h
  cases h

theorem set_eq_some (h : v.set i b = some v') :
    i < v.size ∧ v'.size = v.size ∧ v'.capacity = v.capacity ∧
      ∀ j, v'.has j = if j = i then b else v.has j := by
  unfold set at h
  split_ifs at h with hi
  obtain rfl := some.inj h
  refine ⟨hi, length_set, rfl, fun j => ?_⟩
  unfold has
  split_ifs with hj
  · rw [hj, getElem?_set_self hi, getD_some]
  · rw [getElem?_set_ne (Ne.symm hj)]

theorem exists_set (h : i < v.size) (b : Bool) : ∃ v', v.set i b = some v' := by
  refine ⟨{ v with bits := v.bits.set i b }, ?_⟩
  unfold set
  rw [if_pos h]

theorem size_resize : (v.resize grow n).size = n := by
  unfold resize size
  dsimp only
  split_ifs with h
  · exact length_take_of_le h
  rw [length_append, length_replicate]
  omega

theorem has_resize (h : v.size ≤ n) : (v.resize grow n).has j = v.has j := by
  unfold resize has
  dsimp only
  split_ifs with hle
  · rw [take_of_length_le h]
  rcases lt_or_ge j v.bits.length with hj | hj
  · rw [getElem?_append_left hj]
  rw [getElem?_append_right hj, getElem?_eq_none hj, getElem?_replicate]
  split_ifs <;> rfl

end BitVector

variable {id : ℕ}

theorem lt_roundUp_iff (hid : id < 2 ^ 32) : id < roundUp id ↔ id % 32 ≠ 0 ∧ id < 2 ^ 32 - 32 := by
  unfold roundUp
  split_ifs <;> omega

/-! ### Loading -/

variable {m : Ids}

theorem Ids.loadRow_eq_some {m' : Ids} (h : m.loadRow id = some m') :
    id < m.instanceIds.size ∧ m'.instanceIds.size = m.instanceIds.size ∧
      m'.instanceIds.capacity = m.instanceIds.capacity ∧
      (∀ j, m'.instanceIds.has j = if j = id then true else m.instanceIds.has j) ∧
      m'.nextInstanceId = if m.nextInstanceId = id then (id + 1) % 2 ^ 32 else m.nextInstanceId := by
  unfold Ids.loadRow at h
  split_ifs at h ⊢ with hnext
  all_goals
    obtain ⟨v, hv, h⟩ := bind_eq_some_iff.mp h
    obtain rfl := some.inj h
    obtain ⟨hlt, hsize, hcap, hhas⟩ := BitVector.set_eq_some hv
    exact ⟨hlt, hsize, hcap, hhas, rfl⟩

theorem Ids.exists_loadRow (h : id < m.instanceIds.size) : ∃ m', m.loadRow id = some m' := by
  unfold Ids.loadRow Ids.registerInstanceId
  obtain ⟨v, hv⟩ := BitVector.exists_set h true
  split_ifs <;> exact ⟨_, by rw [hv]; rfl⟩

/-- The stored ids fit: the largest is not a multiple of 32, nor among the last 32. -/
def Fits (stored : List ℕ) : Prop :=
  ∀ id ∈ stored.max?, id % 32 ≠ 0 ∧ id < 2 ^ 32 - 32

/-! ### Ids in use -/

/-- The manager, and the ids that were stored or handed out and not freed since. -/
structure Server where
  ids : Ids
  inUse : Finset ℕ

/-- **The cursor is on the least free id**, and the bits are the ids in use. -/
structure Server.Tracked (s : Server) : Prop where
  used : ∀ i, s.ids.instanceIds.has i = true ↔ i ∈ s.inUse
  fresh : s.ids.nextInstanceId ∉ s.inUse
  below : ∀ i, 0 < i → i < s.ids.nextInstanceId → i ∈ s.inUse
  lt : s.ids.nextInstanceId < 2 ^ 32
  empty : s.ids.instanceIds.size = 0 → s.ids.instanceIds.capacity = 0

variable {s : Server}

theorem Server.Tracked.loadRow (h : s.Tracked)
    (hafter : ∀ i ∈ s.inUse, i < id) (hid : id < 2 ^ 32 - 32) (hm : s.ids.loadRow id = some m) :
    Server.Tracked ⟨m, insert id s.inUse⟩ := by
  obtain ⟨hlt, hsize, hcap, hhas, hnext⟩ := Ids.loadRow_eq_some hm
  refine ⟨fun i => ?_, ?_, ?_, ?_, ?_⟩
  · rw [hhas, Finset.mem_insert, ← h.used i]
    split_ifs with hi
    · exact ⟨fun _ => .inl hi, fun _ => rfl⟩
    · exact ⟨.inr, fun h' => h'.resolve_left hi⟩
  · dsimp only
    rw [hnext, Finset.mem_insert, not_or]
    split_ifs with hcur
    · rw [Nat.mod_eq_of_lt (by omega)]
      refine ⟨by omega, fun hmem => ?_⟩
      have := hafter _ hmem
      omega
    · exact ⟨hcur, h.fresh⟩
  · intro i hpos hi
    rw [hnext] at hi
    rw [Finset.mem_insert]
    split_ifs at hi with hcur
    · rw [Nat.mod_eq_of_lt (by omega)] at hi
      rcases Nat.lt_succ_iff_lt_or_eq.mp hi with hi | hi
      · exact .inr (h.below i hpos (hcur ▸ hi))
      · exact .inl hi
    · exact .inr (h.below i hpos hi)
  · dsimp only
    rw [hnext]
    split_ifs
    · omega
    · exact h.lt
  dsimp only
  rw [hsize, hcap]
  exact h.empty

variable {stored : List ℕ}

/-- **Loading**, row after row: the ids come in ascending order. -/
theorem Server.Tracked.load (h : s.Tracked)
    (hsorted : stored.Pairwise (· < ·)) (hafter : ∀ i ∈ s.inUse, ∀ id ∈ stored, i < id)
    (hfits : ∀ id ∈ stored, id < s.ids.instanceIds.size ∧ id < 2 ^ 32 - 32) :
    ∃ m, stored.foldlM Ids.loadRow s.ids = some m ∧
      Server.Tracked ⟨m, s.inUse ∪ stored.toFinset⟩ := by
  induction stored generalizing s with
  | nil => exact ⟨s.ids, rfl, by rwa [toFinset_nil, Finset.union_empty]⟩
  | cons id stored ih =>
    obtain ⟨hlt, hid⟩ := hfits id mem_cons_self
    obtain ⟨m, hm⟩ := Ids.exists_loadRow hlt
    obtain ⟨hfirst, hsorted⟩ := pairwise_cons.mp hsorted
    have hrow := h.loadRow (fun i hi => hafter i hi id mem_cons_self) hid hm
    have hsize := (Ids.loadRow_eq_some hm).2.1
    obtain ⟨m', hm', htracked⟩ := ih hrow hsorted (by
        intro i hi j hj
        rcases Finset.mem_insert.mp hi with rfl | hi
        · exact hfirst j hj
        · exact hafter i hi j (mem_cons_of_mem _ hj))
      (fun j hj => by
        rw [hsize]
        exact hfits j (mem_cons_of_mem _ hj))
    refine ⟨m', ?_, ?_⟩
    · rw [foldlM_cons, hm]
      exact hm'
    · rwa [toFinset_cons, Finset.union_insert, ← Finset.insert_union]

theorem foldlM_loadRow_size {m' : Ids}
    (h : stored.foldlM Ids.loadRow m = some m') : ∀ id ∈ stored, id < m.instanceIds.size := by
  induction stored generalizing m with
  | nil => exact nofun
  | cons id stored ih =>
    obtain ⟨m1, hm1, h⟩ := bind_eq_some_iff.mp h
    obtain ⟨hlt, hsize, -⟩ := Ids.loadRow_eq_some hm1
    intro j hj
    rcases mem_cons.mp hj with rfl | hj
    · exact hlt
    · exact hsize ▸ ih h j hj

theorem tracked_init (grow : Growth) (maxId : ℕ) : Server.Tracked ⟨initInstanceIds grow maxId, ∅⟩ where
  used i := by
    have h : (initInstanceIds grow maxId).instanceIds.has i = ({} : BitVector).has i :=
      BitVector.has_resize (Nat.zero_le _)
    rw [h]
    simp [BitVector.has]
  fresh := Finset.notMem_empty _
  below i hpos hi := by
    have : i < 1 := hi
    omega
  lt := by
    show 1 < 2 ^ 32
    omega
  empty h := by
    have hsize : roundUp maxId = 0 := BitVector.size_resize.symm.trans h
    show (({} : BitVector).resize grow (roundUp maxId)).capacity = 0
    rw [hsize]
    rfl

theorem tracked_of_fits (grow : Growth) (hsorted : stored.Pairwise (· < ·))
    (hrange : ∀ id ∈ stored, id < 2 ^ 32) (h : Fits stored) :
    ∃ m, loadInstances grow stored = some m ∧ Server.Tracked ⟨m, stored.toFinset⟩ := by
  have hall : ∀ id ∈ stored, id < (initInstanceIds grow (stored.max?.getD 0)).instanceIds.size ∧
      id < 2 ^ 32 - 32 := by
    intro id hid
    cases hmax : stored.max? with
    | none =>
      rw [max?_eq_none_iff.mp hmax] at hid
      cases hid
    | some top =>
      have hle : id ≤ top := (max?_eq_some_iff.mp hmax).2 id hid
      have htop := h top hmax
      have hlt := (lt_roundUp_iff (hrange top (max?_mem hmax))).mpr htop
      have hsize : (initInstanceIds grow ((some top).getD 0)).instanceIds.size = roundUp top :=
        BitVector.size_resize
      omega
  obtain ⟨m, hm, htracked⟩ := (tracked_init grow (stored.max?.getD 0)).load hsorted
    nofun hall
  exact ⟨m, hm, htracked⟩

/-- **When loading stays inside the vector.** -/
theorem load_isSome_iff (grow : Growth) (hsorted : stored.Pairwise (· < ·))
    (hrange : ∀ id ∈ stored, id < 2 ^ 32) : (loadInstances grow stored).isSome ↔ Fits stored := by
  constructor
  · intro h id hid
    obtain ⟨m, hm⟩ := isSome_iff_exists.mp h
    have hmem : id ∈ stored := max?_mem hid
    have hlt := foldlM_loadRow_size hm id hmem
    have hsize : (initInstanceIds grow (stored.max?.getD 0)).instanceIds.size =
        roundUp (stored.max?.getD 0) := BitVector.size_resize
    rw [hsize, mem_def.mp hid] at hlt
    exact (lt_roundUp_iff (hrange id hmem)).mp hlt
  intro h
  obtain ⟨m, hm, -⟩ := tracked_of_fits grow hsorted hrange h
  exact isSome_iff_exists.mpr ⟨m, hm⟩

/-! ### Generating and freeing -/

section Scan

variable {v : BitVector} {left i j : ℕ}

theorem not_has_iff : (i < v.size ∧ ¬ v.has i = true) ∨ i ≥ v.size ↔ v.has i = false := by
  constructor
  · rintro (⟨-, h⟩ | h)
    · simpa using h
    by_contra hne
    exact absurd (BitVector.lt_of_has (by simpa using hne)) (not_lt.mpr h)
  intro h
  rcases lt_or_ge i v.size with hi | hi
  · exact .inl ⟨hi, by simp [h]⟩
  · exact .inr hi

theorem scan_eq_some (h : Ids.scan v left i = some j) :
    i ≤ j ∧ j < i + left ∧ v.has j = false ∧ ∀ k, i ≤ k → k < j → v.has k = true := by
  induction left generalizing i with
  | zero => cases h
  | succ left ih =>
    rw [Ids.scan] at h
    split_ifs at h with hfree
    · obtain rfl := some.inj h
      exact ⟨le_refl _, by omega, not_has_iff.mp hfree, fun k h1 h2 => by omega⟩
    obtain ⟨hle, hlt, hj, hbetween⟩ := ih h
    refine ⟨by omega, by omega, hj, fun k h1 h2 => ?_⟩
    rcases Nat.eq_or_lt_of_le h1 with rfl | h1
    · simpa using (not_has_iff.not.mp hfree)
    · exact hbetween k h1 h2

theorem scan_eq_none (h : Ids.scan v left i = none) :
    ∀ k, i ≤ k → k < i + left → v.has k = true := by
  induction left generalizing i with
  | zero => exact fun k h1 h2 => by omega
  | succ left ih =>
    rw [Ids.scan] at h
    split_ifs at h with hfree
    intro k h1 h2
    rcases Nat.eq_or_lt_of_le h1 with rfl | h1
    · simpa using (not_has_iff.not.mp hfree)
    · exact ih h k h1 (by omega)

end Scan

namespace Server

variable {s : Server} {grow : Growth}

/-- There is room for the id at the cursor: the vector is sized for it already, or has
capacity left, or the id is in a block of 32 that begins below it. -/
def Roomy (s : Server) : Prop :=
  s.ids.instanceIds.size % 2 ^ 32 ≤ s.ids.nextInstanceId →
    s.ids.instanceIds.size < s.ids.instanceIds.capacity ∨
    (s.ids.instanceIds.size ≤ s.ids.nextInstanceId ∧ s.ids.nextInstanceId % 32 ≠ 0 ∧
      s.ids.nextInstanceId < 2 ^ 32 - 32)

/-- There is a free id for the cursor to go on to. -/
def HasNext (s : Server) : Prop :=
  (s.ids.nextInstanceId + 1) % 2 ^ 32 ∉ s.inUse ∨
    ∃ id, (s.ids.nextInstanceId + 1) % 2 ^ 32 ≤ id ∧ id < 0xFFFFFFFF ∧ id ∉ s.inUse

/-- The cursor is not above the least free id. -/
def Least (s : Server) : Prop :=
  ∀ id, 0 < id → id ∉ s.inUse → s.ids.nextInstanceId ≤ id

section

variable (h : s.Tracked)

include h

theorem Tracked.least : s.Least := by
  intro id hpos hid
  by_contra hlt
  exact hid (h.below id hpos (not_le.mp hlt))

theorem Tracked.next_le (hsize : s.ids.instanceIds.size ≠ 0) :
    s.ids.nextInstanceId ≤ s.ids.instanceIds.size := by
  rcases Nat.lt_or_ge s.ids.nextInstanceId 2 with hlt | hge
  · omega
  have hmem := h.below (s.ids.nextInstanceId - 1) (by omega) (by omega)
  have := BitVector.lt_of_has ((h.used _).mpr hmem)
  omega

theorem Tracked.allocate (grow : Growth) (hroom : s.Roomy) :
    s.ids.nextInstanceId < (s.ids.allocate grow s.ids.nextInstanceId).size ∧
      ∀ j, (s.ids.allocate grow s.ids.nextInstanceId).has j = s.ids.instanceIds.has j := by
  unfold Ids.allocate
  dsimp only
  split_ifs with hge hcap
  · rw [BitVector.size_resize]
    have hsize : s.ids.instanceIds.size ≠ 0 := by
      intro hzero
      have := h.empty hzero
      omega
    exact ⟨lt_of_le_of_lt (h.next_le hsize) hcap, fun j => BitVector.has_resize hcap.le⟩
  · rw [BitVector.size_resize]
    obtain ⟨hle, hfits⟩ := (hroom hge).resolve_left hcap
    have hlt := (lt_roundUp_iff h.lt).mpr hfits
    exact ⟨hlt, fun j => BitVector.has_resize (hle.trans hlt.le)⟩
  refine ⟨?_, fun j => rfl⟩
  omega

theorem Tracked.advance (hnext : s.HasNext) :
    s.ids.advance < 2 ^ 32 ∧ s.ids.advance ≠ s.ids.nextInstanceId ∧ s.ids.advance ∉ s.inUse ∧
      ∀ i, 0 < i → i < s.ids.advance → i = s.ids.nextInstanceId ∨ i ∈ s.inUse := by
  unfold Ids.advance
  dsimp only
  obtain ⟨start, hstart⟩ : ∃ start, start = (s.ids.nextInstanceId + 1) % 2 ^ 32 := ⟨_, rfl⟩
  -- after the last id the cursor starts again at `0`
  have hbelow : ∀ i, 0 < i → i < start → i = s.ids.nextInstanceId ∨ i ∈ s.inUse := by
    intro i hpos hi
    rcases Nat.lt_or_ge i s.ids.nextInstanceId with hlt | hge
    · exact .inr (h.below i hpos hlt)
    · exact .inl (by omega)
  rw [← hstart]
  cases hscan : Ids.scan s.ids.instanceIds (0xFFFFFFFF - start) start with
  | some j =>
    obtain ⟨hle, hjlt, hfree, hbetween⟩ := scan_eq_some hscan
    rw [getD_some]
    refine ⟨by omega, by omega, fun hmem => ?_, fun i hpos hi => ?_⟩
    · rw [(h.used j).mpr hmem] at hfree
      cases hfree
    rcases Nat.lt_or_ge i start with hlt | hge
    · exact hbelow i hpos hlt
    · exact .inr ((h.used i).mp (hbetween i hge hi))
  | none =>
    rw [getD_none]
    refine ⟨by omega, by omega, ?_, hbelow⟩
    rcases hnext with hfree | ⟨id, hge, hid, hfree⟩
    · rwa [hstart]
    have hused := scan_eq_none hscan id (by omega) (by omega)
    exact (hfree ((h.used id).mp hused)).elim

/-- **A generated id was free**, and the cursor is on the least free id again. -/
theorem Tracked.generate (grow : Growth) (hroom : s.Roomy) (hnext : s.HasNext) :
    ∃ m, s.ids.generateInstanceId grow = some (s.ids.nextInstanceId, m) ∧
      Tracked ⟨m, insert s.ids.nextInstanceId s.inUse⟩ := by
  obtain ⟨hlt, hhas⟩ := h.allocate grow hroom
  obtain ⟨v, hv⟩ := BitVector.exists_set hlt true
  obtain ⟨hadv, hne, hfree, hbelow⟩ := h.advance hnext
  obtain ⟨-, hsize, -, hset⟩ := BitVector.set_eq_some hv
  refine ⟨_, by rw [Ids.generateInstanceId, hv]; rfl, ?_⟩
  refine ⟨fun i => ?_, ?_, fun i hpos hi => ?_, hadv, ?_⟩
  · dsimp only
    rw [hset, hhas, Finset.mem_insert, ← h.used i]
    split_ifs with hi
    · exact ⟨fun _ => .inl hi, fun _ => rfl⟩
    · exact ⟨.inr, fun h' => h'.resolve_left hi⟩
  · rw [Finset.mem_insert, not_or]
    exact ⟨hne, hfree⟩
  · exact Finset.mem_insert.mpr (hbelow i hpos hi)
  intro hzero
  dsimp only at hzero
  omega

theorem Tracked.free (hid : id ∈ s.inUse) :
    ∃ m, s.ids.freeInstanceId id = some m ∧ Tracked ⟨m, s.inUse.erase id⟩ := by
  obtain ⟨v, hv⟩ := BitVector.exists_set (BitVector.lt_of_has ((h.used id).mpr hid)) false
  obtain ⟨hlt, hsize, -, hset⟩ := BitVector.set_eq_some hv
  refine ⟨_, by rw [Ids.freeInstanceId, hv]; rfl, ?_⟩
  refine ⟨fun i => ?_, ?_, fun i hpos hi => ?_, ?_, ?_⟩
  · dsimp only
    rw [hset, Finset.mem_erase, ← h.used i]
    split_ifs with hi <;> simp [hi]
  · dsimp only
    rw [Finset.mem_erase, not_and]
    split_ifs with hi
    · exact fun hne => (hne rfl).elim
    · exact fun _ => h.fresh
  · dsimp only at hi
    rw [Finset.mem_erase]
    split_ifs at hi with hcur
    · exact ⟨by omega, h.below i hpos (by omega)⟩
    · exact ⟨by omega, h.below i hpos hi⟩
  · have := h.lt
    dsimp only
    split_ifs <;> omega
  intro hzero
  dsimp only at hzero
  omega

end

end Server

/-! ### Runs -/

/-- What happens to the ids of a running server. -/
inductive Op where
  | generate
  | free (id : ℕ)

/-- One operation; `none` once an access was outside the vector. -/
def step (grow : Growth) : Option Server → Op → Option Server
  | none, _ => none
  | some s, .generate => do
      let (id, m) ← s.ids.generateInstanceId grow
      return ⟨m, insert id s.inUse⟩
  | some s, .free id => do
      let m ← s.ids.freeInstanceId id
      return ⟨m, s.inUse.erase id⟩

def start (grow : Growth) (stored : List ℕ) : Option Server :=
  (loadInstances grow stored).map fun m => ⟨m, stored.toFinset⟩

/-- An id is generated where there is room and a next id; one that is freed is in use. -/
def Meets : Option Server → Op → Prop
  | none, _ => True
  | some s, .generate => s.Roomy ∧ s.HasNext
  | some s, .free id => id ∈ s.inUse

/-- **What an operation does right**: it stays inside the vector, an id that is handed out
is not in use, and the cursor is not above the least free id, before and after. -/
def Sound (grow : Growth) : Option Server → Op → Prop
  | none, _ => False
  | some s, .generate => s.Least ∧ ∃ id m, s.ids.generateInstanceId grow = some (id, m) ∧
      id ∉ s.inUse ∧ Server.Least ⟨m, insert id s.inUse⟩
  | some s, .free id => s.Least ∧ ∃ m, s.ids.freeInstanceId id = some m ∧
      Server.Least ⟨m, s.inUse.erase id⟩

def Up (o : Option Server) : Prop := ∃ s, o = some s ∧ s.Tracked

variable {grow : Growth}
variable {o : Option Server} {op : Op}

theorem up_step (h : Up o) (hop : Meets o op) : Up (step grow o op) := by
  obtain ⟨s, rfl, hs⟩ := h
  cases op with
  | generate =>
    obtain ⟨m, hm, htracked⟩ := hs.generate grow hop.1 hop.2
    exact ⟨_, by rw [step, hm]; rfl, htracked⟩
  | free id =>
    obtain ⟨m, hm, htracked⟩ := hs.free hop
    exact ⟨_, by rw [step, hm]; rfl, htracked⟩

theorem sound_of_up (h : Up o) (hop : Meets o op) : Sound grow o op := by
  obtain ⟨s, rfl, hs⟩ := h
  cases op with
  | generate =>
    obtain ⟨m, hm, htracked⟩ := hs.generate grow hop.1 hop.2
    exact ⟨hs.least, _, m, hm, hs.fresh, htracked.least⟩
  | free id =>
    obtain ⟨m, hm, htracked⟩ := hs.free hop
    exact ⟨hs.least, m, hm, htracked.least⟩

/-- **The ids of instances.**  Loading stays inside the vector exactly when the stored ids
fit, and then every run whose operations meet `Meets` is sound. -/
theorem ids_along (grow : Growth) (stored : List ℕ) (hsorted : stored.Pairwise (· < ·))
    (hrange : ∀ id ∈ stored, id < 2 ^ 32) : ((start grow stored).isSome ↔ Fits stored) ∧
      (Fits stored → (∀ s, start grow stored = some s → s.Least) ∧
        ∀ ops, Along (step grow) Meets (start grow stored) ops →
          Along (step grow) (Sound grow) (start grow stored) ops) := by
  constructor
  · rw [start, isSome_map]
    exact load_isSome_iff grow hsorted hrange
  intro hfits
  obtain ⟨m, hm, htracked⟩ := tracked_of_fits grow hsorted hrange hfits
  have hstart : start grow stored = some ⟨m, stored.toFinset⟩ := by rw [start, hm]; rfl
  refine ⟨fun s hs => ?_, fun ops hops => ?_⟩
  · obtain rfl := some.inj (hstart.symm.trans hs)
    exact htracked.least
  · exact Along.of_invariant (fun _ _ => up_step) (fun _ _ => sound_of_up) ⟨_, hstart, htracked⟩ hops

/-- Ids `1`, `2` and `4` are stored; `3` is handed out, `1` is freed and handed out again. -/
theorem ids_along_three : Along (step wordGrowth) (Sound wordGrowth) (start wordGrowth [1, 2, 4])
      [.generate, .free 1, .generate] := by
  refine ((ids_along wordGrowth [1, 2, 4] (by decide) (by decide)).2 (by unfold Fits; decide)).2 _ ?_
  refine ⟨⟨?_, ?_⟩, ?_, ⟨?_, ?_⟩, trivial⟩
  · unfold Server.Roomy; decide
  · exact .inr ⟨5, by decide, by decide, by decide⟩
  · show 1 ∈ _
    decide
  · unfold Server.Roomy; decide
  · exact .inr ⟨5, by decide, by decide, by decide⟩

/-- **An id one past the end.**  With `32` stored the vector has 32 bits and bit `32` is
set; and from an empty table the 64th id handed out is `64`, for which a full vector of
64 bits is resized to 64 bits. -/
theorem multiple_of_32_outside : (initInstanceIds wordGrowth 32).instanceIds.size = 32 ∧
      start wordGrowth [32] = none ∧
      ((replicate 63 Op.generate).foldl (step wordGrowth) (start wordGrowth [])).map
        (fun s => (s.ids.nextInstanceId, s.ids.instanceIds.size)) = some (64, 64) ∧
      (replicate 64 Op.generate).foldl (step wordGrowth) (start wordGrowth []) = none := by
  refine ⟨by decide, ?_, ?_, ?_⟩
  · have h : (start wordGrowth [32]).isSome = false := by decide
    simpa using h
  · decide +kernel
  have h : ((replicate 64 Op.generate).foldl (step wordGrowth)
      (start wordGrowth [])).isSome = false := by decide +kernel
  simpa using h

end ZerosCore.MapManager
