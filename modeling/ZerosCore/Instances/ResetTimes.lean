/-
# The reset times after a load

`InstanceSaveManager::LoadResetTimes` of `src/server/game/Instances/InstanceSaveMgr.cpp`: the reset
times of normal instances are brought to two hours behind the last respawn, and those of the maps
and difficulties with a reset period are moved on until they are not past.

The loop over the respawns goes on while the *first* result has rows, which has been read to its
end by then: only one row is used.  A period is a time in seconds, not a number of days, while the
time that is moved on begins at midnight, as today does.  `load_right_iff` says when the load comes
out right all the same.

The time of a map and difficulty is moved on by `startTime` of `Schedule.lean`, which has the queue
of the resets.
-/

import Mathlib.Data.Rat.Floor
import ZerosCore.Instances.Schedule

namespace ZerosCore.ResetTimes

open InstanceSaveManager List Option Function

/-- A row of `instance`. -/
structure InstanceRow where
  id : ℕ
  key : Key
  resettime : UInt32

/-- A row of `SELECT MAX(respawnTime), instanceId FROM creature_respawn … GROUP BY instanceId`. -/
structure RespawnRow where
  maxRespawnTime : UInt32
  instanceId : ℕ
  deriving DecidableEq

/-- A row of `instance_reset`. -/
structure ResetRow where
  key : Key
  resettime : UInt32

/-- The tables, the time and the configuration; `mapDifficulties` are the reset times of
`sMapDifficultyMap`, `0` for none. -/
structure Input where
  now : ℕ
  instances : List InstanceRow
  respawns : List RespawnRow
  resets : List ResetRow
  mapDifficulties : List (Key × UInt32)
  resetTimeHour : UInt32
  rate : ℚ
  ids : (instances.map InstanceRow.id).Nodup
  groups : (respawns.map RespawnRow.instanceId).Nodup
  keys : (mapDifficulties.map Prod.fst).Nodup

variable (inp : Input)

/-! ### Normal instances -/

/-- `instResetTime` and the column `resettime` of `instance`. -/
structure Normal where
  instResetTime : ℕ → Option ℕ
  table : ℕ → Option ℕ

/-- The loop over `instance`. -/
def loadInstances : Normal where
  instResetTime := inp.instances.foldl (fun times row =>
    if row.resettime ≠ 0 then Function.update times row.id (some row.resettime.toNat) else times)
      fun _ => none
  table := inp.instances.foldl (fun times row =>
    Function.update times row.id (some row.resettime.toNat)) fun _ => none

/-- The body of the loop over the respawns: the sum is a `uint32`. -/
def updateRespawn (n : Normal) (fields : RespawnRow) : Normal :=
  let resettime := (fields.maxRespawnTime + 7200).toNat
  match n.instResetTime fields.instanceId with
  | some stored =>
    if stored ≠ resettime then
      { instResetTime := Function.update n.instResetTime fields.instanceId (some resettime)
        table := Function.update n.table fields.instanceId (some resettime) }
    else n
  | none => n

/-- The loop over the respawns, with what is left of the result of the first loop: its next row is
asked for, and the row of `result2` stays. -/
def updateRespawns (fields : RespawnRow) : List InstanceRow → Normal → Normal
  | [], n => updateRespawn n fields
  | _ :: result, n => updateRespawns fields result (updateRespawn n fields)

/-- The normal instances: the first loop leaves nothing of its result. -/
def loadNormal : Normal :=
  match inp.respawns with
  | [] => loadInstances inp
  | fields :: _ => updateRespawns fields [] (loadInstances inp)

/-! ### Maps and difficulties -/

def diff : ℕ := (inp.resetTimeHour * 3600).toNat

/-- The reset period: at least one day. -/
def period (resetTime : UInt32) : ℤ :=
  max (⌊(resetTime.toNat * inp.rate / 86400) * 86400⌋₊ % 2 ^ 32 : ℕ) 86400

/-- The loop over `instance_reset`: rows without a map and difficulty are deleted. -/
def loadResets : Key → ℤ :=
  inp.resets.foldl (fun times row =>
    if inp.mapDifficulties.any fun x => x.1 = row.key then
      Function.update times row.key (row.resettime.toNat / 86400 * 86400 + diff inp : ℕ)
    else times) fun _ => 0

/-- The loop over `sMapDifficultyMap`. -/
def resetTimes : Key → ℤ :=
  inp.mapDifficulties.foldl (fun times (key, resetTime) =>
    if resetTime = 0 then times
    else Function.update times key
      (Manager.startTime inp.now (period inp resetTime) (diff inp) (times key))) (loadResets inp)

/-! ### What is promised -/

/-- No reset time of a period is past, and normal instances with a reset time and a respawn have
that of the respawn and two hours. -/
structure LoadRight : Prop where
  not_past : ∀ x ∈ inp.mapDifficulties, x.2 ≠ 0 → inp.now ≤ resetTimes inp x.1
  respawned : ∀ row ∈ inp.respawns, ∀ inst ∈ inp.instances, inst.id = row.instanceId →
    inst.resettime ≠ 0 →
      (loadNormal inp).instResetTime inst.id = some (row.maxRespawnTime.toNat + 7200) ∧
        (loadNormal inp).table inst.id = some (row.maxRespawnTime.toNat + 7200)

/-- The stored time is missing or not past, or the time since midnight is not more than what is left
of the period at midnight, counted from the day of the stored time, and the hour of the reset. -/
def MovedOn (x : Key × UInt32) : Prop :=
  let stored := loadResets inp x.1
  let today : ℤ := (inp.now : ℤ) / 86400 * 86400
  stored = 0 ∨ inp.now ≤ stored ∨ inp.now - today ≤
      period inp x.2 - (today - stored / 86400 * 86400) % period inp x.2 + diff inp

/-- The respawn is the first one and the sum fits, or the instance has the time already. -/
def Updated (row : RespawnRow) (inst : InstanceRow) : Prop :=
  inp.respawns.head? = some row ∧ row.maxRespawnTime.toNat + 7200 < 2 ^ 32 ∨
    inst.resettime.toNat = row.maxRespawnTime.toNat + 7200

variable {inp : Input} {row : RespawnRow} {inst : InstanceRow} {n : Normal}

/-! ### Loops that update a map -/

section Fold

variable {α κ β : Type*} [DecidableEq κ] {l : List α} {m : κ → β} {a : α}
  {body : (κ → β) → α → κ → β}

/-- **A loop that updates each key once** leaves what the one update does. -/
theorem foldl_update_of_mem (key : α → κ) (f : α → β → β)
    (hbody : ∀ m x, body m x = update m (key x) (f x (m (key x))))
    (hkeys : (l.map key).Nodup) (ha : a ∈ l) : l.foldl body m (key a) = f a (m (key a)) := by
  have hother : ∀ (l : List α) (m : κ → β) (k : κ), (∀ x ∈ l, key x ≠ k) →
      l.foldl body m k = m k := by
    intro l
    induction l with
    | nil => exact fun m k _ => rfl
    | cons x l ih =>
      intro m k h
      rw [foldl_cons, ih _ k fun y hy => h y (mem_cons_of_mem x hy), hbody,
        update_of_ne (h x mem_cons_self).symm]
  induction l generalizing m with
  | nil => cases ha
  | cons x l ih =>
    rw [map_cons, nodup_cons] at hkeys
    have hnew : ∀ y ∈ l, key y ≠ key x := fun y hy heq => hkeys.1 (heq ▸ mem_map_of_mem hy)
    rw [foldl_cons]
    rcases mem_cons.mp ha with rfl | ha
    · rw [hother l _ _ hnew, hbody, update_self]
    · rw [ih hkeys.2 ha, hbody, update_of_ne (hnew a ha)]

end Fold

/-! ### The first half -/

theorem instResetTime_loaded (hinst : inst ∈ inp.instances) (hstored : inst.resettime ≠ 0) :
    (loadInstances inp).instResetTime inst.id = some inst.resettime.toNat := by
  refine (foldl_update_of_mem InstanceRow.id (fun row old =>
    if row.resettime ≠ 0 then some row.resettime.toNat else old) (fun times row => ?_)
      inp.ids hinst).trans (if_pos hstored)
  split_ifs
  · rfl
  · rw [update_eq_self]

theorem table_loaded (hinst : inst ∈ inp.instances) :
    (loadInstances inp).table inst.id = some inst.resettime.toNat :=
  foldl_update_of_mem InstanceRow.id (fun row _ => some row.resettime.toNat) (fun _ _ => rfl)
    inp.ids hinst

/-- **The row of another instance changes nothing.** -/
theorem updateRespawn_of_ne {id : ℕ} (h : id ≠ row.instanceId) :
    (updateRespawn n row).instResetTime id = n.instResetTime id ∧
      (updateRespawn n row).table id = n.table id := by
  unfold updateRespawn
  dsimp only
  split
  · split_ifs
    · exact ⟨update_of_ne h _ _, update_of_ne h _ _⟩
    · exact ⟨rfl, rfl⟩
  · exact ⟨rfl, rfl⟩

/-- **The row of an instance brings its time to the sum.** -/
theorem updateRespawn_self {stored : ℕ} (h : n.instResetTime row.instanceId = some stored)
    (htable : n.table row.instanceId = some stored) :
    (updateRespawn n row).instResetTime row.instanceId = some (row.maxRespawnTime + 7200).toNat ∧
      (updateRespawn n row).table row.instanceId = some (row.maxRespawnTime + 7200).toNat := by
  unfold updateRespawn
  rw [h]
  dsimp only
  split_ifs with hne
  · exact ⟨update_self _ _ _, update_self _ _ _⟩
  rw [not_not] at hne
  exact ⟨hne ▸ h, hne ▸ htable⟩

theorem sum_toNat (respawn : UInt32) :
    (respawn + 7200).toNat = respawn.toNat + 7200 ↔ respawn.toNat + 7200 < 2 ^ 32 := by
  rw [UInt32.toNat_add]
  have hconst : (7200 : UInt32).toNat = 7200 := rfl
  omega

/-- **One instance and its respawn.** -/
theorem respawned_iff (hrow : row ∈ inp.respawns) (hinst : inst ∈ inp.instances)
    (hid : inst.id = row.instanceId) (hstored : inst.resettime ≠ 0) :
    ((loadNormal inp).instResetTime inst.id = some (row.maxRespawnTime.toNat + 7200) ∧
        (loadNormal inp).table inst.id = some (row.maxRespawnTime.toNat + 7200)) ↔
      Updated inp row inst := by
  have hload := instResetTime_loaded hinst hstored
  have htable := table_loaded hinst
  have hsmall : inst.resettime.toNat < 2 ^ 32 := inst.resettime.toNat_lt
  unfold Updated loadNormal
  cases hrows : inp.respawns with
  | nil => exact absurd (hrows ▸ hrow) not_mem_nil
  | cons first rest =>
    dsimp only [updateRespawns]
    rw [head?_cons]
    by_cases heq : first = row
    · subst heq
      rw [hid] at hload htable ⊢
      obtain ⟨hmem, htab⟩ := updateRespawn_self hload htable
      rw [hmem, htab, some.injEq, and_self, sum_toNat]
      exact ⟨fun h => .inl ⟨rfl, h⟩, fun h => h.elim (·.2) fun h => by omega⟩
    have hne : inst.id ≠ first.instanceId := by
      intro hsame
      have hgroups := inp.groups
      rw [hrows, map_cons, nodup_cons] at hgroups
      have hrest : row ∈ rest := (mem_cons.mp (hrows ▸ hrow)).resolve_left fun h => heq h.symm
      exact hgroups.1 (hsame ▸ hid ▸ mem_map_of_mem hrest)
    obtain ⟨hmem, htab⟩ := updateRespawn_of_ne (n := loadInstances inp) hne
    rw [hmem, htab, hload, htable, and_self, some.injEq, some.injEq]
    exact ⟨.inr, fun h => h.resolve_left fun h => heq h.1⟩

/-! ### The second half -/

theorem resetTimes_eq {x : Key × UInt32} (hx : x ∈ inp.mapDifficulties) (hperiod : x.2 ≠ 0) :
    resetTimes inp x.1 =
      Manager.startTime inp.now (period inp x.2) (diff inp) (loadResets inp x.1) := by
  refine (foldl_update_of_mem Prod.fst (fun x old => if x.2 = 0 then old
    else Manager.startTime inp.now (period inp x.2) (diff inp) old) (fun times y => ?_)
      inp.keys hx).trans (if_neg hperiod)
  dsimp only
  split_ifs
  · rw [update_eq_self]
  · rfl

/-- **A time is moved on far enough** if what is left of the period reaches to now. -/
theorem startTime_iff {now t p : ℤ} {d : ℕ} (hp : 86400 ≤ p) :
    now ≤ Manager.startTime now p d t ↔ t = 0 ∨ now ≤ t ∨ now - now / 86400 * 86400 ≤
        p - (now / 86400 * 86400 - t / 86400 * 86400) % p + d := by
  unfold Manager.startTime day
  dsimp only
  by_cases hzero : t = 0
  · rw [if_pos hzero, if_neg (by omega)]
    exact iff_of_true (by omega) (.inl hzero)
  rw [if_neg hzero]
  by_cases hpast : t < now
  · rw [if_pos hpast, Int.add_mul, Int.one_mul, Int.mul_comm _ p, Int.emod_def]
    omega
  rw [if_neg hpast]
  omega

theorem period_ge (resetTime : UInt32) : 86400 ≤ period inp resetTime := le_max_right _ _

/-- **The load is right if and only if** every past reset time is moved on far enough and every
instance with a respawn has the time of it already or is the one that is updated. -/
theorem load_right_iff (inp : Input) :
    LoadRight inp ↔ (∀ x ∈ inp.mapDifficulties, x.2 ≠ 0 → MovedOn inp x) ∧
      ∀ row ∈ inp.respawns, ∀ inst ∈ inp.instances, inst.id = row.instanceId →
        inst.resettime ≠ 0 → Updated inp row inst := by
  have hmoved : ∀ x ∈ inp.mapDifficulties, x.2 ≠ 0 →
      (inp.now ≤ resetTimes inp x.1 ↔ MovedOn inp x) := by
    intro x hx hperiod
    rw [resetTimes_eq hx hperiod]
    exact startTime_iff (period_ge x.2)
  constructor
  · intro h
    refine ⟨fun x hx hperiod => (hmoved x hx hperiod).mp (h.not_past x hx hperiod), ?_⟩
    intro row hrow inst hinst hid hstored
    exact (respawned_iff hrow hinst hid hstored).mp (h.respawned row hrow inst hinst hid hstored)
  rintro ⟨hperiods, hrespawns⟩
  refine ⟨fun x hx hperiod => (hmoved x hx hperiod).mpr (hperiods x hx hperiod), ?_⟩
  intro row hrow inst hinst hid hstored
  exact (respawned_iff hrow hinst hid hstored).mpr (hrespawns row hrow inst hinst hid hstored)

/-- Two instances with respawns, and a map and difficulty with a period of a day and a half, whose
last reset was on the day before. -/
def twoInstances : Input where
  now := 232800
  instances := [⟨1, ⟨36, 0⟩, 240000⟩, ⟨2, ⟨36, 0⟩, 240000⟩]
  respawns := [⟨250000, 1⟩, ⟨260000, 2⟩]
  resets := [⟨⟨533, 0⟩, 100800⟩]
  mapDifficulties := [(⟨533, 0⟩, 86400)]
  resetTimeHour := 4
  rate := 3 / 2
  ids := by decide
  groups := by decide
  keys := by decide

/-- The second instance keeps its old time, and the reset of the map is past after the load. -/
theorem second_instance_kept : (loadNormal twoInstances).table 2 = some 240000 ∧
      resetTimes twoInstances ⟨533, 0⟩ < twoInstances.now ∧ ¬LoadRight twoInstances := by
  have hperiod : period twoInstances 86400 = 129600 := by
    have hfloor : ((86400 : UInt32).toNat * twoInstances.rate / 86400) * 86400 =
        ((129600 : ℕ) : ℚ) := by
      have hday : (86400 : UInt32).toNat = 86400 := rfl
      rw [hday]
      norm_num [twoInstances]
    unfold period
    rw [hfloor, Nat.floor_natCast]
    rfl
  have hpast : resetTimes twoInstances ⟨533, 0⟩ < twoInstances.now := by
    rw [@resetTimes_eq _ (⟨533, 0⟩, 86400) (by decide) (by decide), hperiod]
    decide
  exact ⟨by decide, hpast, fun h => absurd (h.not_past (⟨533, 0⟩, 86400) (by decide) (by decide))
    (not_le.mpr hpast)⟩

end ZerosCore.ResetTimes
