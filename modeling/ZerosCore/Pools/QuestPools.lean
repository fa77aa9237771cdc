/-
# Pools of quests

`PoolGroup<Quest>::SpawnObject` of `src/server/game/Pools/PoolMgr.cpp`: the quests of a pool
that were saved are started again, or else the pool is cleared and quests are drawn, new ones
if there are enough and otherwise some that were active until then.

`mActiveQuests` is one set for all pools, and the quests to start again are drawn from all of
it: with too few new ones a pool starts quests of others, and counts them as its own.  What
was saved is not compared with the list of the pool, and a limit of zero is decremented before
it is tested.  `spawnObject_right_iff` says when all goes right whatever is drawn.

The quests are in the list without chances, since they are loaded without one.  A set is a
list without repetitions, in any order, since the draws are arbitrary.
-/

import ZerosCore.Pools.PoolMgr
import Mathlib.Data.List.Dedup
import Mathlib.Data.List.Perm.Subperm

namespace ZerosCore.Pools.Quests

open List

/-- `ActivePoolData` with `mActiveQuests`. -/
structure QuestData where
  data : ActivePoolData
  activeQuests : List ℕ
  nodup : activeQuests.Nodup

/-- A `PoolGroup<Quest>` and the limit of its pool. -/
structure QuestPool where
  poolId : ℕ
  quests : List ℕ
  limit : UInt32

namespace QuestData

def isActiveObject (s : QuestData) (quest : ℕ) : Bool := decide (quest ∈ s.activeQuests)

def activateObject (s : QuestData) (quest p : ℕ) : QuestData where
  data := s.data.setCount p fun n => n + 1
  activeQuests := s.activeQuests.insert quest
  nodup := s.nodup.insert

def removeObject (s : QuestData) (quest p : ℕ) : QuestData where
  data := s.data.setCount p fun n => n - 1
  activeQuests := s.activeQuests.erase quest
  nodup := s.nodup.erase quest

end QuestData

/-- `SelectRandomContainerElement`. -/
def selectRandom (quests : List ℕ) (index : ℕ) : ℕ := quests.getD (index % quests.length) 0

variable {quests : List ℕ}

theorem selectRandom_mem (h : quests ≠ []) (index : ℕ) : selectRandom quests index ∈ quests := by
  have hlt : index % quests.length < quests.length := Nat.mod_lt _ (length_pos_iff.mpr h)
  rw [selectRandom, getD_eq_getElem?_getD, getElem?_eq_getElem hlt]
  exact getElem_mem _

theorem length_erase_selectRandom (h : quests ≠ []) (index : ℕ) :
    (quests.erase (selectRandom quests index)).length < quests.length := by
  have hpos := length_pos_iff.mpr h
  rw [length_erase_of_mem (selectRandom_mem h index)]
  omega

/-- `PoolGroup::DespawnObject` of all quests. -/
def despawnObject (pool : QuestPool) (s : QuestData) : QuestData :=
  pool.quests.foldl
    (fun s quest => if s.isActiveObject quest then s.removeObject quest pool.poolId else s) s

/-- The saved quests are started again, up to the limit; the quests that are started are told
with the state. -/
def loadSaved (p : ℕ) : UInt32 → List ℕ → QuestData → QuestData × List ℕ
  | _, [], s => (s, [])
  | limit, quest :: saved, s =>
    let s := s.activateObject quest p
    if limit - 1 = 0 then (s, [quest])
    else
      let r := loadSaved p (limit - 1) saved s
      (r.1, quest :: r.2)

def newQuests (pool : QuestPool) (s : QuestData) : List ℕ :=
  pool.quests.dedup.filter fun quest => !s.isActiveObject quest

/-- Active quests are drawn until there are as many as the limit, or none is left.  The draws
are numbered. -/
def recycle (draws : ℕ → ℕ) (limit : UInt32) (d : ℕ) (new current : List ℕ) : List ℕ × ℕ :=
  if h : current = [] then (new, d)
  else
    let quest := selectRandom current (draws d)
    let new := new.insert quest
    if new.length < limit.toNat ∧ current.erase quest ≠ [] then
      recycle draws limit (d + 1) new (current.erase quest)
    else (new, d + 1)
termination_by current.length
decreasing_by exact length_erase_selectRandom h _

/-- Quests are drawn and started; the limit is decremented before it is tested. -/
def activateDrawn (draws : ℕ → ℕ) (p : ℕ) (limit : UInt32) (d : ℕ) (new : List ℕ)
    (s : QuestData) : QuestData × List ℕ :=
  if h : new = [] then (s, [])
  else
    let quest := selectRandom new (draws d)
    let s := s.activateObject quest p
    if limit - 1 ≠ 0 ∧ new.erase quest ≠ [] then
      let r := activateDrawn draws p (limit - 1) (d + 1) (new.erase quest) s
      (r.1, quest :: r.2)
    else (s, [quest])
termination_by new.length
decreasing_by exact length_erase_selectRandom h _

def candidates (draws : ℕ → ℕ) (pool : QuestPool) (s : QuestData) : List ℕ × ℕ :=
  let new := newQuests pool s
  if pool.limit.toNat > new.length ∧ s.activeQuests ≠ [] then
    recycle draws pool.limit 0 new s.activeQuests
  else (new, 0)

/-- `PoolGroup<Quest>::SpawnObject`; `saved` are the rows of `pool_quest_save` for the pool. -/
def spawnObject (draws : ℕ → ℕ) (pool : QuestPool) (saved : List ℕ) (triggerFrom : ℕ)
    (s : QuestData) : QuestData × List ℕ :=
  if triggerFrom = 0 ∧ saved ≠ [] then loadSaved pool.poolId pool.limit saved s
  else
    let found := candidates draws pool s
    activateDrawn draws pool.poolId pool.limit found.2 found.1 (despawnObject pool s)

/-! ### What should hold -/

/-- What the quests are started over: the pool is cleared unless its quests were saved. -/
def cleared (pool : QuestPool) (saved : List ℕ) (triggerFrom : ℕ) (s : QuestData) : QuestData :=
  if triggerFrom = 0 ∧ saved ≠ [] then s else despawnObject pool s

/-- Only quests of the pool are started for it, no more of them are active than the limit
allows, and the counter is raised by the quests of the pool that have become active. -/
structure SpawnedRight (pool : QuestPool) (s : QuestData) (r : QuestData × List ℕ) : Prop where
  own : ∀ quest ∈ r.2, quest ∈ pool.quests
  within : pool.quests.dedup.countP r.1.isActiveObject ≤ pool.limit.toNat
  counted : r.1.data.getActiveObjectCount pool.poolId = s.data.getActiveObjectCount pool.poolId +
      pool.quests.dedup.countP fun quest => r.1.isActiveObject quest && !s.isActiveObject quest

/-- When all goes right.  If there are saved quests to load, the first of them up to the limit
are different quests of the pool that are not active, and fit into the limit beside those that
are; and otherwise with a limit of zero no quest of the pool is new, and if there are fewer new
ones than the limit, all that is active is of the pool. -/
def SpawnsRight (pool : QuestPool) (saved : List ℕ) (triggerFrom : ℕ) (s : QuestData) : Prop :=
  if triggerFrom = 0 ∧ saved ≠ [] then
    (saved.take pool.limit.toNat).Nodup ∧
      (∀ quest ∈ saved.take pool.limit.toNat, quest ∈ pool.quests ∧ quest ∉ s.activeQuests) ∧
        0 < pool.limit.toNat ∧
          pool.quests.dedup.countP s.isActiveObject + (saved.take pool.limit.toNat).length ≤
            pool.limit.toNat
  else
    (pool.limit.toNat = 0 → ∀ quest ∈ pool.quests, quest ∈ s.activeQuests) ∧
      ((newQuests pool s).length < pool.limit.toNat → ∀ quest ∈ s.activeQuests, quest ∈ pool.quests)

variable {pool : QuestPool} {s t : QuestData} {quest p d : ℕ} {limit : UInt32}
  {new current started : List ℕ} {draws : ℕ → ℕ}

/-! ### Sets of quests -/

theorem isActive_activateObject (s : QuestData) (quest p q : ℕ) :
    (s.activateObject quest p).isActiveObject q = (decide (q = quest) || s.isActiveObject q) := by
  simp [QuestData.isActiveObject, QuestData.activateObject]

theorem isActive_removeObject (s : QuestData) (quest p q : ℕ) :
    (s.removeObject quest p).isActiveObject q = (decide (q ≠ quest) && s.isActiveObject q) := by
  simp [QuestData.isActiveObject, QuestData.removeObject, s.nodup.mem_erase_iff]

theorem count_activateObject (s : QuestData) (quest p : ℕ) :
    (s.activateObject quest p).data.getActiveObjectCount p = s.data.getActiveObjectCount p + 1 := by
  simp [QuestData.activateObject, ActivePoolData.setCount, ActivePoolData.getActiveObjectCount]

def activateAll (p : ℕ) (started : List ℕ) (s : QuestData) : QuestData :=
  started.foldl (fun s quest => s.activateObject quest p) s

theorem isActive_activateAll (started : List ℕ) (s : QuestData) (q : ℕ) :
    (activateAll p started s).isActiveObject q = (decide (q ∈ started) || s.isActiveObject q) := by
  induction started generalizing s with
  | nil => simp [activateAll]
  | cons quest started ih =>
    rw [activateAll, foldl_cons, ← activateAll, ih, isActive_activateObject]
    by_cases hq : q = quest <;> simp [hq]

theorem count_activateAll (started : List ℕ) (s : QuestData) :
    (activateAll p started s).data.getActiveObjectCount p =
      s.data.getActiveObjectCount p + started.length := by
  induction started generalizing s with
  | nil => rfl
  | cons quest started ih =>
    rw [activateAll, foldl_cons, ← activateAll, ih, count_activateObject, length_cons]
    omega

theorem isActive_despawnObject (pool : QuestPool) (s : QuestData) (q : ℕ) :
    (despawnObject pool s).isActiveObject q = (decide (q ∉ pool.quests) && s.isActiveObject q) := by
  rw [despawnObject]
  generalize pool.quests = quests
  induction quests generalizing s with
  | nil => simp
  | cons quest quests ih =>
    rw [foldl_cons, ih]
    split
    · rw [isActive_removeObject]
      by_cases hq : q = quest <;> simp [hq]
    rename_i hinactive
    by_cases hq : q = quest
    · simp [hq, hinactive]
    · simp [hq]

/-! ### What is started is what the counter is raised by -/

theorem countP_gained (quests : List ℕ) (before after : ℕ → Bool)
    (hgrown : ∀ q, before q = true → after q = true) :
    quests.countP after = quests.countP before + quests.countP fun q => after q && !before q := by
  induction quests with
  | nil => rfl
  | cons q quests ih =>
    have hq := hgrown q
    simp only [countP_cons]
    cases hbefore : before q with
    | true =>
      rw [hq hbefore]
      simp only [Bool.not_true, Bool.and_false, Bool.false_eq_true, if_true, if_false]
      omega
    | false =>
      simp only [Bool.not_false, Bool.and_true, Bool.false_eq_true, if_false]
      omega

/-- The quests that become active are as many as are started exactly if these are different
quests of the pool that were not active. -/
theorem length_started_iff : started.length = (pool.quests.dedup.countP fun q =>
        decide (q ∈ started) && !s.isActiveObject q) ↔
      started.Nodup ∧ ∀ q ∈ started, q ∈ pool.quests ∧ s.isActiveObject q = false := by
  have hnodup : (pool.quests.dedup.filter fun q =>
      decide (q ∈ started) && !s.isActiveObject q).Nodup := pool.quests.nodup_dedup.filter _
  have hmem (q : ℕ) : (q ∈ pool.quests.dedup.filter fun q =>
      decide (q ∈ started) && !s.isActiveObject q) ↔
        q ∈ pool.quests ∧ q ∈ started ∧ s.isActiveObject q = false := by
    simp
  rw [countP_eq_length_filter]
  constructor
  · intro hlength
    have hsub := subperm_of_subset hnodup fun q hq => ((hmem q).mp hq).2.1
    have hperm := hsub.perm_of_length_le (Nat.le_of_eq hlength)
    refine ⟨hperm.nodup_iff.mp hnodup, fun q hq => ?_⟩
    obtain ⟨hpool, -, hinactive⟩ := (hmem q).mp (hperm.mem_iff.mpr hq)
    exact ⟨hpool, hinactive⟩
  rintro ⟨hstarted, hquests⟩
  refine ((perm_ext_iff_of_nodup hstarted hnodup).mpr fun q => ?_).length_eq
  rw [hmem]
  exact ⟨fun hq => ⟨(hquests q hq).1, hq, (hquests q hq).2⟩, fun hq => hq.2.1⟩

/-- **All goes right** if what is started are different quests of the pool that fit into the
limit. -/
theorem spawnedRight_iff {r : QuestData × List ℕ} (hr : r.1 = activateAll pool.poolId r.2 s) :
    SpawnedRight pool s r ↔ r.2.Nodup ∧ (∀ q ∈ r.2, q ∈ pool.quests ∧ s.isActiveObject q = false) ∧
        pool.quests.dedup.countP s.isActiveObject + r.2.length ≤ pool.limit.toNat := by
  obtain ⟨after, started⟩ := r
  dsimp only at hr ⊢
  subst hr
  have hgained := countP_gained pool.quests.dedup s.isActiveObject
    (activateAll pool.poolId started s).isActiveObject fun q hq => by
      rw [isActive_activateAll, hq, Bool.or_true]
  have hnew : (pool.quests.dedup.countP fun q =>
      (activateAll pool.poolId started s).isActiveObject q && !s.isActiveObject q) =
        pool.quests.dedup.countP fun q => decide (q ∈ started) && !s.isActiveObject q := by
    refine countP_congr fun q _ => ?_
    rw [isActive_activateAll]
    cases s.isActiveObject q <;> simp
  rw [hnew] at hgained
  constructor
  · rintro ⟨-, hwithin, hcounted⟩
    dsimp only at hwithin hcounted
    rw [count_activateAll, hnew] at hcounted
    have hlength := Nat.add_left_cancel hcounted
    obtain ⟨hnodup, hquests⟩ := length_started_iff.mp hlength
    exact ⟨hnodup, hquests, by omega⟩
  rintro ⟨hnodup, hquests, hle⟩
  have hlength := length_started_iff.mpr ⟨hnodup, hquests⟩
  refine ⟨fun q hq => (hquests q hq).1, ?_, ?_⟩
  · dsimp only
    omega
  dsimp only
  rw [count_activateAll, hnew, ← hlength]

/-! ### The loops -/

theorem toNat_pred (h : 0 < limit.toNat) : (limit - 1).toNat = limit.toNat - 1 := by
  have hone : (1 : UInt32) ≤ limit := UInt32.le_iff_toNat_le.mpr h
  rw [UInt32.toNat_sub_of_le _ _ hone]
  rfl

theorem pred_eq_zero_iff : limit - 1 = 0 ↔ limit.toNat = 1 := by
  constructor
  · intro h
    have heq : limit = 1 := by
      have hadd := congrArg (fun n => n + 1) h
      simpa using hadd
    rw [heq]
    rfl
  intro h
  have heq : limit = 1 := UInt32.toNat_inj.mp h
  rw [heq]
  rfl

theorem loadSaved_spec (limit : UInt32) (saved : List ℕ) (s : QuestData) :
    (loadSaved p limit saved s).1 = activateAll p (loadSaved p limit saved s).2 s ∧
      (saved ≠ [] → (loadSaved p limit saved s).2 ≠ []) ∧
        (0 < limit.toNat → (loadSaved p limit saved s).2 = saved.take limit.toNat) := by
  induction saved generalizing limit s with
  | nil => exact ⟨rfl, fun h => absurd rfl h, fun _ => take_nil.symm⟩
  | cons quest saved ih =>
    rw [loadSaved]
    dsimp only
    split
    · rename_i hlast
      rw [pred_eq_zero_iff] at hlast
      refine ⟨rfl, fun _ => cons_ne_nil _ _, fun _ => ?_⟩
      rw [hlast]
      rfl
    rename_i hmore
    obtain ⟨hstate, -, htaken⟩ := ih (limit - 1) (s.activateObject quest p)
    refine ⟨hstate, fun _ => cons_ne_nil _ _, fun hpos => ?_⟩
    rw [pred_eq_zero_iff] at hmore
    have hpred := toNat_pred hpos
    obtain ⟨n, hn⟩ : ∃ n, limit.toNat = n + 1 := ⟨limit.toNat - 1, by omega⟩
    rw [hn, Nat.add_sub_cancel] at hpred
    rw [htaken (by omega), hn, hpred, take_succ_cons]

theorem recycle_spec (draws : ℕ → ℕ) (d : ℕ) (hnew : new.Nodup)
    (hcurrent : current.Nodup) (hapart : ∀ q ∈ new, q ∉ current) (hfew : new.length < limit.toNat) :
    (recycle draws limit d new current).1.Nodup ∧
      (recycle draws limit d new current).1.length ≤ limit.toNat ∧
        ∀ q ∈ (recycle draws limit d new current).1, q ∈ new ∨ q ∈ current := by
  induction hlength : current.length using Nat.strongRecOn generalizing d new current with
  | _ n ih =>
    rw [recycle]
    split
    · exact ⟨hnew, Nat.le_of_lt hfew, fun q hq => .inl hq⟩
    rename_i hsome
    have hquest := selectRandom_mem hsome (draws d)
    have hshort := length_erase_selectRandom hsome (draws d)
    dsimp only
    generalize selectRandom current (draws d) = quest at hquest hshort ⊢
    have hnot : quest ∉ new := fun hmem => hapart quest hmem hquest
    have hinsert : new.insert quest = quest :: new := insert_of_not_mem hnot
    rw [hinsert]
    have hcons : (quest :: new).Nodup := nodup_cons.mpr ⟨hnot, hnew⟩
    have hmem (q : ℕ) (hq : q ∈ quest :: new) : q ∈ new ∨ q ∈ current := by
      rcases mem_cons.mp hq with rfl | hold
      · exact .inr hquest
      · exact .inl hold
    split
    · rename_i hmore
      have hapart' : ∀ q ∈ quest :: new, q ∉ current.erase quest := fun q hq herase => by
        rw [hcurrent.mem_erase_iff] at herase
        rcases mem_cons.mp hq with heq | hold
        · exact herase.1 heq
        · exact hapart q hold herase.2
      obtain ⟨hnodup, hle, hfrom⟩ := ih _ (hlength ▸ hshort) (d + 1) hcons
        (hcurrent.erase quest) hapart' hmore.1 rfl
      refine ⟨hnodup, hle, fun q hq => ?_⟩
      rcases hfrom q hq with h | h
      · exact hmem q h
      · exact .inr (mem_of_mem_erase h)
    refine ⟨hcons, ?_, hmem⟩
    rw [length_cons]
    omega

variable {q : ℕ}

theorem mem_recycle (draws : ℕ → ℕ) (limit : UInt32) (d : ℕ) (new current : List ℕ)
    (hq : q ∈ new) : q ∈ (recycle draws limit d new current).1 := by
  induction hlength : current.length using Nat.strongRecOn generalizing d new current with
  | _ n ih =>
    rw [recycle]
    split
    · exact hq
    rename_i hsome
    have hinsert : q ∈ new.insert (selectRandom current (draws d)) := mem_insert_of_mem hq
    dsimp only
    split
    · exact ih _ (hlength ▸ length_erase_selectRandom hsome _) _ _ _ hinsert rfl
    · exact hinsert

theorem first_mem_recycle (draws : ℕ → ℕ) (limit : UInt32) (d : ℕ) (new : List ℕ)
    (hsome : current ≠ []) :
    selectRandom current (draws d) ∈ (recycle draws limit d new current).1 := by
  rw [recycle, dif_neg hsome]
  dsimp only
  split
  · exact mem_recycle _ _ _ _ _ mem_insert_self
  · exact mem_insert_self

theorem activateDrawn_spec (draws : ℕ → ℕ) (p : ℕ) (limit : UInt32) (d : ℕ) (hnew : new.Nodup)
    (s : QuestData) : (activateDrawn draws p limit d new s).1 =
        activateAll p (activateDrawn draws p limit d new s).2 s ∧
      (activateDrawn draws p limit d new s).2.Nodup ∧
        (∀ q ∈ (activateDrawn draws p limit d new s).2, q ∈ new) ∧
          (new ≠ [] → (activateDrawn draws p limit d new s).2 ≠ []) ∧
            (0 < limit.toNat → (activateDrawn draws p limit d new s).2.length =
              min limit.toNat new.length) := by
  induction hlength : new.length using Nat.strongRecOn generalizing limit d new s with
  | _ n ih =>
    rw [activateDrawn]
    split
    · rename_i hnone
      refine ⟨rfl, nodup_nil, fun q hq => absurd hq not_mem_nil,
        fun h => absurd hnone h, fun _ => ?_⟩
      rw [hnone] at hlength
      rw [← hlength]
      exact (Nat.min_zero _).symm
    rename_i hsome
    have hquest := selectRandom_mem hsome (draws d)
    have hshort := length_erase_selectRandom hsome (draws d)
    have herased := length_erase_of_mem hquest
    have hpos := length_pos_iff.mpr hsome
    dsimp only
    generalize selectRandom new (draws d) = quest at hquest hshort herased ⊢
    split
    · rename_i hmore
      obtain ⟨hstate, hnodup, hsub, -, hcount⟩ := ih _ (hlength ▸ hshort) (limit - 1) (d + 1)
        (hnew.erase quest) (s.activateObject quest p) rfl
      refine ⟨hstate, ?_, fun q hq => ?_, fun _ => cons_ne_nil _ _, fun hlimit => ?_⟩
      · refine nodup_cons.mpr ⟨fun hmem => ?_, hnodup⟩
        exact ((hnew.mem_erase_iff).mp (hsub quest hmem)).1 rfl
      · rcases mem_cons.mp hq with rfl | hrest
        · exact hquest
        · exact mem_of_mem_erase (hsub q hrest)
      have hpred := toNat_pred hlimit
      have hone := mt pred_eq_zero_iff.mpr hmore.1
      rw [length_cons, hcount (by omega), hpred, herased]
      omega
    rename_i hlast
    refine ⟨rfl, nodup_singleton _, fun q hq => ?_, fun _ => cons_ne_nil _ _, fun hlimit => ?_⟩
    · rw [mem_singleton.mp hq]
      exact hquest
    rw [length_singleton]
    by_cases hone : limit.toNat = 1
    · omega
    have hlimitMore : limit - 1 ≠ 0 := mt pred_eq_zero_iff.mp hone
    have hempty : new.erase quest = [] := by
      by_contra hrest
      exact hlast ⟨hlimitMore, hrest⟩
    rw [hempty, length_nil] at herased
    omega

/-! ### The pools of quests -/

theorem mem_newQuests : q ∈ newQuests pool s ↔ q ∈ pool.quests ∧ q ∉ s.activeQuests := by
  simp [newQuests, QuestData.isActiveObject]

theorem candidates_spec (draws : ℕ → ℕ) (pool : QuestPool) (s : QuestData) :
    (candidates draws pool s).1.Nodup ∧ (∀ q ∈ newQuests pool s, q ∈ (candidates draws pool s).1) ∧
        (∀ q ∈ (candidates draws pool s).1, q ∈ newQuests pool s ∨
          (newQuests pool s).length < pool.limit.toNat ∧ q ∈ s.activeQuests) ∧
          ((newQuests pool s).length < pool.limit.toNat →
            (candidates draws pool s).1.length ≤ pool.limit.toNat) := by
  have hnew : (newQuests pool s).Nodup := pool.quests.nodup_dedup.filter _
  rw [candidates]
  split
  · rename_i hrecycle
    obtain ⟨hnodup, hle, hfrom⟩ := recycle_spec draws 0 hnew s.nodup
      (fun q hq => (mem_newQuests.mp hq).2) hrecycle.1
    refine ⟨hnodup, fun q hq => mem_recycle _ _ _ _ _ hq, fun q hq => ?_, fun _ => hle⟩
    rcases hfrom q hq with h | h
    · exact .inl h
    · exact .inr ⟨hrecycle.1, h⟩
  · exact ⟨hnew, fun q hq => hq, fun q hq => .inl hq, Nat.le_of_lt⟩

theorem exists_candidate (hfew : (newQuests pool s).length < pool.limit.toNat)
    (hq : q ∈ s.activeQuests) : ∃ draws, q ∈ (candidates draws pool s).1 := by
  have hsome : s.activeQuests ≠ [] := ne_nil_of_mem hq
  refine ⟨fun _ => s.activeQuests.idxOf q, ?_⟩
  have hfirst := first_mem_recycle (fun _ => s.activeQuests.idxOf q) pool.limit 0
    (newQuests pool s) hsome
  have hlt := idxOf_lt_length_of_mem hq
  rw [selectRandom, Nat.mod_eq_of_lt hlt, getD_eq_getElem?_getD,
    getElem?_eq_getElem hlt, getElem_idxOf] at hfirst
  rw [candidates, if_pos ⟨hfew, hsome⟩]
  exact hfirst

theorem countP_despawnObject (pool : QuestPool) (s : QuestData) :
    pool.quests.dedup.countP (despawnObject pool s).isActiveObject = 0 := by
  refine countP_eq_zero.mpr fun q hq => ?_
  rw [isActive_despawnObject]
  simp [mem_dedup.mp hq]

theorem drawn_right_iff (pool : QuestPool) (s : QuestData) (draws : ℕ → ℕ) :
    let found := candidates draws pool s
    let r := activateDrawn draws pool.poolId pool.limit found.2 found.1 (despawnObject pool s)
    SpawnedRight pool (despawnObject pool s) r ↔
      (∀ q ∈ r.2, q ∈ pool.quests) ∧ r.2.length ≤ pool.limit.toNat := by
  intro found r
  obtain ⟨hstate, hnodup, -⟩ := activateDrawn_spec draws pool.poolId pool.limit found.2
    (candidates_spec draws pool s).1 (despawnObject pool s)
  rw [spawnedRight_iff hstate, countP_despawnObject, Nat.zero_add]
  constructor
  · rintro ⟨-, hquests, hle⟩
    exact ⟨fun q hq => (hquests q hq).1, hle⟩
  rintro ⟨hquests, hle⟩
  refine ⟨hnodup, fun q hq => ⟨hquests q hq, ?_⟩, hle⟩
  rw [isActive_despawnObject]
  simp [hquests q hq]

/-- **The pools of quests.**  Whatever is drawn: only quests of the pool are started for it and
no more than its limit are active, and the counter is raised by what has become active, exactly
if there is enough to draw from in the pool itself. -/
theorem spawnObject_right_iff (pool : QuestPool) (saved : List ℕ) (triggerFrom : ℕ)
    (s : QuestData) : (∀ draws, SpawnedRight pool (cleared pool saved triggerFrom s)
      (spawnObject draws pool saved triggerFrom s)) ↔ SpawnsRight pool saved triggerFrom s := by
  rw [SpawnsRight]
  by_cases hload : triggerFrom = 0 ∧ saved ≠ []
  · obtain ⟨hstate, hsome, htaken⟩ := loadSaved_spec (p := pool.poolId) pool.limit saved s
    simp only [spawnObject, cleared, if_pos hload]
    rw [forall_const, spawnedRight_iff hstate]
    have hinactive (q : ℕ) : s.isActiveObject q = false ↔ q ∉ s.activeQuests :=
      decide_eq_false_iff_not
    simp only [hinactive]
    constructor
    · rintro ⟨hnodup, hquests, hle⟩
      have hpos := length_pos_iff.mpr (hsome hload.2)
      have hlimit : 0 < pool.limit.toNat := by omega
      rw [htaken hlimit] at hnodup hquests hle
      exact ⟨hnodup, hquests, hlimit, hle⟩
    rintro ⟨hnodup, hquests, hlimit, hle⟩
    rw [htaken hlimit]
    exact ⟨hnodup, hquests, hle⟩
  have hright := drawn_right_iff pool s
  simp only [spawnObject, cleared, if_neg hload, hright]
  constructor
  · intro h
    refine ⟨fun hzero q hq => ?_, fun hfew q hq => ?_⟩
    · by_contra hinactive
      obtain ⟨hnodup, hnew, -⟩ := candidates_spec (fun _ => 0) pool s
      obtain ⟨-, -, -, hsome, -⟩ := activateDrawn_spec (fun _ => 0) pool.poolId pool.limit
        (candidates (fun _ => 0) pool s).2 hnodup (despawnObject pool s)
      have hmem := hnew q (mem_newQuests.mpr ⟨hq, hinactive⟩)
      have hpos := length_pos_iff.mpr (hsome (ne_nil_of_mem hmem))
      have hle := (h fun _ => 0).2
      omega
    obtain ⟨draws, hmem⟩ := exists_candidate hfew hq
    obtain ⟨hnodup, -, -, hle⟩ := candidates_spec draws pool s
    obtain ⟨-, hstarted, hsub, -, hcount⟩ := activateDrawn_spec draws pool.poolId pool.limit
      (candidates draws pool s).2 hnodup (despawnObject pool s)
    have hall := hcount (by omega)
    rw [Nat.min_eq_right (hle hfew)] at hall
    have hperm := (subperm_of_subset hstarted hsub).perm_of_length_le (Nat.le_of_eq hall.symm)
    exact (h draws).1 q (hperm.mem_iff.mpr hmem)
  rintro ⟨hzero, hfew⟩ draws
  obtain ⟨hnodup, hnew, hfrom, -⟩ := candidates_spec draws pool s
  obtain ⟨-, -, hsub, -, hcount⟩ := activateDrawn_spec draws pool.poolId pool.limit
    (candidates draws pool s).2 hnodup (despawnObject pool s)
  constructor
  · intro q hq
    rcases hfrom q (hsub q hq) with h | ⟨hless, hactive⟩
    · exact (mem_newQuests.mp h).1
    · exact hfew hless q hactive
  by_cases hlimit : 0 < pool.limit.toNat
  · rw [hcount hlimit]
    exact Nat.min_le_left _ _
  have hlimitZero : pool.limit.toNat = 0 := by omega
  refine Nat.le_of_eq ?_
  rw [hlimitZero, length_eq_zero_iff, eq_nil_iff_forall_not_mem]
  intro q hq
  rcases hfrom q (hsub q hq) with h | ⟨hless, -⟩
  · exact (mem_newQuests.mp h).2 (hzero hlimitZero q (mem_newQuests.mp h).1)
  · omega

/-- A daily change of the pool `1` of three quests, two at a time, while a quest of another pool
is active: only one quest is new, and of the active ones the other pool's is drawn. -/
theorem quest_of_other_pool_started :
    let pool : QuestPool := ⟨1, [10, 11, 12], 2⟩
    let s : QuestData := ⟨.empty, [10, 11, 20], by decide⟩
    ¬ SpawnedRight pool (cleared pool [] 1 s) (spawnObject (fun _ => 2) pool [] 1 s) := by
  intro pool s h
  have hstarted : 20 ∈ (spawnObject (fun _ => 2) pool [] 1 s).2 := by decide +kernel
  exact absurd (h.own 20 hstarted) (by decide)

end ZerosCore.Pools.Quests
