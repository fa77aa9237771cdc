/-
# Who is bound to which instance

`src/server/game/Instances/InstanceSaveMgr.cpp` (`AddInstanceSave`,
`RemoveInstanceSave`, `UnloadIfEmpty`, `_ResetSave`, `_ResetInstance`,
`_ResetOrWarnAll`), `src/server/game/Entities/Player/Player.cpp` and
`src/server/game/Groups/Group.cpp` (`BindToInstance`, `UnbindInstance`).

A bind is stored twice: an instance save lists the players and groups bound to it, and
each of these has an entry for the map and difficulty that points to the save.  A save
nobody is bound to is unloaded.  `Consistent` says that the two agree; every operation
keeps it, so the loops that unbind everybody end and no pointer is left behind
(`binds_consistent`).

`Owner` is a player or a group.  An operation returns `none` where the source would follow
a pointer to a deleted save, fail the assertion of `~InstanceSave` or loop for ever.
-/

import Mathlib.Data.List.Count
import ZerosCore.Lib.Keyed
import ZerosCore.Lib.Run

namespace ZerosCore.InstanceBinds

open Lib List Option Keyed.Table Function

/-- A map and a difficulty. -/
structure Key where
  map : ℕ
  difficulty : ℕ
  deriving DecidableEq

/-- Who can be bound. -/
inductive Owner where
  | player (guid : ℕ)
  | group (guid : ℕ)
  deriving DecidableEq

/-- `InstanceSave`, at an address. -/
structure InstanceSave where
  addr : ℕ
  instanceId : ℕ
  key : Key
  canReset : Bool
  playerList : List ℕ := []
  groupList : List ℕ := []
  deriving DecidableEq

namespace InstanceSave

/-- `AddPlayer` and `AddGroup`. -/
def add (save : InstanceSave) : Owner → InstanceSave
  | .player p => { save with playerList := save.playerList ++ [p] }
  | .group g => { save with groupList := save.groupList ++ [g] }

/-- `m_playerList.remove` and `m_groupList.remove`. -/
def remove (save : InstanceSave) : Owner → InstanceSave
  | .player p => { save with playerList := save.playerList.filter (· ≠ p) }
  | .group g => { save with groupList := save.groupList.filter (· ≠ g) }

/-- `m_playerList.empty() && m_groupList.empty()`. -/
def isEmpty (save : InstanceSave) : Bool := save.playerList.isEmpty && save.groupList.isEmpty

/-- How often the owner is listed. -/
def occurs (save : InstanceSave) : Owner → ℕ
  | .player p => save.playerList.count p
  | .group g => save.groupList.count g

end InstanceSave

/-- `InstancePlayerBind` and `InstanceGroupBind`. -/
structure Bind where
  save : ℕ
  perm : Bool
  deriving DecidableEq

/-- The saves and the binds. -/
structure State where
  /-- `m_instanceSaveById`. -/
  saves : Keyed.Table InstanceSave.instanceId := .empty _
  /-- `m_boundInstances` of each player and group. -/
  boundInstances : Owner → Key → Option Bind := fun _ _ => none
  /-- `lock_instLists`. -/
  lock : Bool := false
  /-- The next address. -/
  next : ℕ := 0

structure Maps where
  /-- `sMapStore.LookupEntry`. -/
  known : ℕ → Bool
  isRaid : ℕ → Bool
  instanceable : ℕ → Bool

/-- `MAX_RAID_DIFFICULTY` or `MAX_DUNGEON_DIFFICULTY`. -/
def Maps.maxDifficulty (maps : Maps) (mapId : ℕ) : ℕ := if maps.isRaid mapId then 4 else 3

namespace State

variable (s : State)

def deref (addr : ℕ) : Option InstanceSave := s.saves.rows.find? fun save => save.addr = addr

def write (save : InstanceSave) (f : InstanceSave → InstanceSave)
    (hf : ∀ a, (f a).instanceId = a.instanceId) : State :=
  { s with saves := s.saves.modify save.instanceId f hf }

def addInstanceSave (maps : Maps) (mapId instanceId difficulty : ℕ) (canReset : Bool) : State :=
  if (s.saves.get? instanceId).isSome then s
  else if !maps.known mapId then s
  else if instanceId = 0 then s
  else if difficulty ≥ maps.maxDifficulty mapId then s
  else { s with
    saves := s.saves.put
      { addr := s.next, instanceId, key := ⟨mapId % 2 ^ 16, difficulty⟩, canReset }
    next := s.next + 1 }

/-- `RemoveInstanceSave`: the save found is deleted. -/
def removeInstanceSave (instanceId : ℕ) : Option State :=
  match s.saves.get? instanceId with
  | none => some s
  | some save =>
    -- the assertion of `~InstanceSave`
    if save.isEmpty then some { s with saves := s.saves.erase instanceId } else none

theorem remove_instanceId (o : Owner) (save : InstanceSave) :
    (save.remove o).instanceId = save.instanceId := by
  cases o <;> rfl

theorem add_instanceId (o : Owner) (save : InstanceSave) :
    (save.add o).instanceId = save.instanceId := by
  cases o <;> rfl

/-- `RemovePlayer` and `RemoveGroup`, with `UnloadIfEmpty`. -/
def removeOwner (o : Owner) (addr : ℕ) : Option State :=
  match s.deref addr with
  | none => none
  | some save =>
    let s := s.write save (fun a => a.remove o) (remove_instanceId o)
    if (save.remove o).isEmpty && !s.lock then s.removeInstanceSave save.instanceId else some s

/-- The entry of an owner for a map and difficulty. -/
def setBind (o : Owner) (key : Key) (bind : Option Bind) : State :=
  { s with
    boundInstances := Function.update s.boundInstances o
      (Function.update (s.boundInstances o) key bind) }

def unbindInstance (o : Owner) (key : Key) : Option State :=
  match s.boundInstances o key with
  | none => some s
  | some bind => do
      let s ← s.removeOwner o bind.save
      return s.setBind o key none

/-- `BindToInstance`, for a save that exists. -/
def bindTo (o : Owner) (save : InstanceSave) (permanent : Bool) : Option State := do
  let s ← match s.boundInstances o save.key with
    | some bind =>
      if bind.save ≠ save.addr then do
        let s ← s.removeOwner o bind.save
        match s.deref save.addr with
        | none => none
        | some a => some (s.write a (fun a => a.add o) (add_instanceId o))
      else some s
    | none =>
      match s.deref save.addr with
      | none => none
      | some a => some (s.write a (fun a => a.add o) (add_instanceId o))
  return s.setBind o save.key (some ⟨save.addr, permanent⟩)

/-- `Player::BindToInstance`, for the save with an id. -/
def playerBindToInstance (player instanceId : ℕ) (permanent : Bool) : Option State :=
  match s.saves.get? instanceId with
  | none => some s
  | some save => do
      let s ← s.bindTo (.player player) save permanent
      return if permanent then s.write save (fun a => { a with canReset := false }) (fun _ => rfl)
        else s

/-- `Group::BindToInstance`, for the save with an id; battlegrounds have groups of their
own. -/
def groupBindToInstance (group instanceId : ℕ) (permanent isBgOrBfGroup : Bool) : Option State :=
  match s.saves.get? instanceId with
  | none => some s
  | some save => if isBgOrBfGroup then some s else s.bindTo (.group group) save permanent

/-- The loop `while (!list.empty())` of `_ResetSave`, for the list whose head `first` reads.
A round that does not shorten the list changes nothing, so the loop ends within as many
rounds as the list has elements or never. -/
def unbindWhile (first : InstanceSave → Option Owner) (addr : ℕ) : ℕ → State → Option State
  | 0, s => if ((s.deref addr).bind first).isNone then some s else none
  | rounds + 1, s =>
    match s.deref addr with
    | none => none
    | some save =>
      match first save with
      | none => some s
      | some o => (s.unbindInstance o save.key).bind (unbindWhile first addr rounds)

def resetSave (save : InstanceSave) : Option State := do
  let s := { s with lock := true }
  let s ← unbindWhile (fun a => a.playerList.head?.map .player) save.addr save.playerList.length s
  let s ← unbindWhile (fun a => a.groupList.head?.map .group) save.addr save.groupList.length s
  let s ← s.removeInstanceSave save.instanceId
  return { s with lock := false }

/-- `_ResetInstance`, as far as the saves go. -/
def resetInstance (maps : Maps) (mapId instanceId : ℕ) : Option State :=
  if !maps.instanceable mapId then some s
  else match s.saves.get? instanceId with
    | none => some s
    | some save => s.resetSave save

/-- `_ResetOrWarnAll` for a reset, as far as the saves go. -/
def resetAll (maps : Maps) (key : Key) : Option State :=
  if !maps.instanceable key.map then some s
  else (s.saves.rows.filter fun save => save.key = key).foldlM
    (fun s save =>
      match s.saves.get? save.instanceId with
      | none => some s
      | some save => s.resetSave save) s

end State

/-- What happens to saves and binds. -/
inductive Op where
  | addInstanceSave (mapId instanceId difficulty : ℕ) (canReset : Bool)
  | playerBind (player instanceId : ℕ) (permanent : Bool)
  | playerUnbind (player : ℕ) (key : Key)
  | groupBind (group instanceId : ℕ) (permanent isBgOrBfGroup : Bool)
  | groupUnbind (group : ℕ) (key : Key)
  | resetInstance (mapId instanceId : ℕ)
  | resetAll (key : Key)
  deriving DecidableEq

/-- One operation. -/
def step (maps : Maps) (s : State) : Op → Option State
  | .addInstanceSave mapId instanceId difficulty canReset =>
    some (s.addInstanceSave maps mapId instanceId difficulty canReset)
  | .playerBind player instanceId permanent => s.playerBindToInstance player instanceId permanent
  | .playerUnbind player key => s.unbindInstance (.player player) key
  | .groupBind group instanceId permanent isBgOrBfGroup =>
    s.groupBindToInstance group instanceId permanent isBgOrBfGroup
  | .groupUnbind group key => s.unbindInstance (.group group) key
  | .resetInstance mapId instanceId => s.resetInstance maps mapId instanceId
  | .resetAll key => s.resetAll maps key

/-! ### Lists of owners -/

section Lists

variable (save : InstanceSave) (o o' : Owner)

theorem InstanceSave.occurs_remove :
    (save.remove o).occurs o' = if o' = o then 0 else save.occurs o' := by
  cases o with
  | player p =>
    cases o' with
    | player q =>
      show (save.playerList.filter (· ≠ p)).count q = _
      rcases eq_or_ne q p with rfl | hne
      · simp [count_eq_zero]
      rw [if_neg (by simpa using hne), count_filter (by simpa using hne)]
      rfl
    | group q => rfl
  | group g =>
    cases o' with
    | player q => rfl
    | group q =>
      show (save.groupList.filter (· ≠ g)).count q = _
      rcases eq_or_ne q g with rfl | hne
      · simp [count_eq_zero]
      rw [if_neg (by simpa using hne), count_filter (by simpa using hne)]
      rfl

theorem InstanceSave.occurs_add :
    (save.add o).occurs o' = save.occurs o' + if o' = o then 1 else 0 := by
  cases o with
  | player p =>
    cases o' with
    | player q =>
      show (save.playerList ++ [p]).count q = save.playerList.count q + _
      rcases eq_or_ne q p with rfl | hne
      · simp
      · simp [hne, Ne.symm hne]
    | group q => rfl
  | group g =>
    cases o' with
    | player q => rfl
    | group q =>
      show (save.groupList ++ [g]).count q = save.groupList.count q + _
      rcases eq_or_ne q g with rfl | hne
      · simp
      · simp [hne, Ne.symm hne]

theorem InstanceSave.isEmpty_iff : save.isEmpty = true ↔ ∀ o, save.occurs o = 0 := by
  unfold isEmpty
  rw [Bool.and_eq_true, List.isEmpty_iff, List.isEmpty_iff]
  constructor
  · rintro ⟨hp, hg⟩ o
    cases o with
    | player p => simp [occurs, hp]
    | group g => simp [occurs, hg]
  intro h
  constructor
  · exact eq_nil_iff_forall_not_mem.mpr fun p => count_eq_zero.mp (h (.player p))
  · exact eq_nil_iff_forall_not_mem.mpr fun g => count_eq_zero.mp (h (.group g))

theorem InstanceSave.remove_addr : (save.remove o).addr = save.addr := by cases o <;> rfl

theorem InstanceSave.remove_key : (save.remove o).key = save.key := by cases o <;> rfl

theorem InstanceSave.add_addr : (save.add o).addr = save.addr := by cases o <;> rfl

theorem InstanceSave.add_key : (save.add o).key = save.key := by cases o <;> rfl

end Lists

/-! ### The two sides agree -/

/-- The entry of the owner for the save's map and difficulty points to the save. -/
def State.Bound (s : State) (o : Owner) (save : InstanceSave) : Prop :=
  ∃ bind, s.boundInstances o save.key = some bind ∧ bind.save = save.addr

instance (s : State) (o : Owner) (save : InstanceSave) : Decidable (s.Bound o save) :=
  match h : s.boundInstances o save.key with
  | none => .isFalse fun ⟨_, hb, _⟩ => by rw [h] at hb; cases hb
  | some bind =>
    if hb : bind.save = save.addr then .isTrue ⟨bind, h, hb⟩
    else .isFalse fun ⟨b, hb', hs⟩ => by
      rw [h] at hb'
      exact hb (Option.some.inj hb' ▸ hs)

/-- **Saves and binds agree**: an owner is listed once by a save it is bound to and not by
any other, and every bind points to a save that is there, of its map and difficulty. -/
structure Consistent (s : State) : Prop where
  addr_lt : ∀ a ∈ s.saves.rows, a.addr < s.next
  addr_inj : ∀ a ∈ s.saves.rows, ∀ b ∈ s.saves.rows, a.addr = b.addr → a = b
  listed : ∀ a ∈ s.saves.rows, ∀ o, a.occurs o = if s.Bound o a then 1 else 0
  found : ∀ o key bind, s.boundInstances o key = some bind →
    ∃ a ∈ s.saves.rows, a.addr = bind.save ∧ a.key = key

section Agree

variable {s s' : State} {save : InstanceSave} {o : Owner} {key : Key} {bind : Bind}

theorem consistent_empty : Consistent {} where
  addr_lt _ h := by cases h
  addr_inj _ h := by cases h
  listed _ h := by cases h
  found _ _ _ h := by cases h

theorem mem_of_deref {addr : ℕ} (h : s.deref addr = some save) :
    save ∈ s.saves.rows ∧ save.addr = addr :=
  ⟨mem_of_find?_eq_some h, by simpa using find?_some h⟩

theorem Consistent.deref (h : Consistent s) (hsave : save ∈ s.saves.rows) :
    s.deref save.addr = some save := by
  cases hd : s.deref save.addr with
  | none =>
    have := find?_eq_none.mp hd save hsave
    simp at this
  | some a =>
    obtain ⟨ha, haddr⟩ := mem_of_deref hd
    rw [h.addr_inj a ha save hsave haddr]

variable {f : InstanceSave → InstanceSave}

theorem mem_write (hsave : save ∈ s.saves.rows)
    (hf : ∀ a, (f a).instanceId = a.instanceId) {a : InstanceSave} :
    a ∈ (s.write save f hf).saves.rows ↔ (a ∈ s.saves.rows ∧ a ≠ save) ∨ a = f save := by
  show a ∈ (s.saves.modify save.instanceId f hf).rows ↔ _
  rw [mem_rows_modify]
  refine or_congr (and_congr_right fun ha => not_congr ?_) ?_
  · exact ⟨fun heq => s.saves.distinct.eq_of_key ha hsave heq, fun heq => heq ▸ rfl⟩
  constructor
  · rintro ⟨b, hb, heq, rfl⟩
    rw [s.saves.distinct.eq_of_key hb hsave heq]
  rintro rfl
  exact ⟨save, hsave, rfl, rfl⟩

theorem setBind_bound_iff (s : State) (o : Owner) (key : Key) (b : Option Bind) (o' : Owner)
    (a : InstanceSave) : (s.setBind o key b).Bound o' a ↔
      if o' = o ∧ a.key = key then ∃ bind, b = some bind ∧ bind.save = a.addr else s.Bound o' a := by
  have hget : (s.setBind o key b).boundInstances o' a.key =
      if o' = o ∧ a.key = key then b else s.boundInstances o' a.key := by
    show update s.boundInstances o (update (s.boundInstances o) key b) o' a.key = _
    rcases eq_or_ne o' o with rfl | hne
    · rw [update_self, update_apply]
      simp
    · rw [update_of_ne hne, if_neg fun h => hne h.1]
  unfold State.Bound
  rw [hget]
  split_ifs <;> rfl

theorem setBind_eq_some {b : Option Bind} {o' : Owner} {key' : Key}
    (h : (s.setBind o key b).boundInstances o' key' = some bind) :
    (o' = o ∧ key' = key ∧ b = some bind) ∨
      (¬ (o' = o ∧ key' = key) ∧ s.boundInstances o' key' = some bind) := by
  have hget : update s.boundInstances o (update (s.boundInstances o) key b) o' key' = some bind := h
  rcases eq_or_ne o' o with rfl | hne
  · rw [update_self, update_apply] at hget
    split_ifs at hget with hk
    · exact .inl ⟨rfl, hk, hget⟩
    · exact .inr ⟨fun h => hk h.2, hget⟩
  rw [update_of_ne hne] at hget
  exact .inr ⟨fun h => hne h.1, hget⟩

section

variable (h : Consistent s)

include h

/-- **The entry of an owner changes**, from one for the save or none to one for the save or none,
and the save with it, which is gone if `keep` fails; it may only when nobody is listed. -/
theorem Consistent.rebound {new : Option Bind} {save' : InstanceSave} (keep : Prop)
    (hsave : save ∈ s.saves.rows)
    (hold : ∀ b, s.boundInstances o save.key = some b → b.save = save.addr)
    (hnew : ∀ b, new = some b → b.save = save.addr) (haddr : save'.addr = save.addr)
    (hkey : save'.key = save.key)
    (hocc : ∀ o', save'.occurs o' = if o' = o then (if new.isSome then 1 else 0) else save.occurs o')
    (hkeep : ¬ keep → save'.isEmpty = true) (hnext : s'.next = s.next)
    (hbinds : s'.boundInstances = s.boundInstances)
    (hrows : ∀ a, a ∈ s'.saves.rows ↔ (a ∈ s.saves.rows ∧ a ≠ save) ∨ (a = save' ∧ keep)) :
    Consistent (s'.setBind o save.key new) := by
  -- whoever is listed keeps the save
  have hstay {o' : Owner} (hone : save'.occurs o' = 1) : keep := by
    by_contra hgone
    have hzero := (InstanceSave.isEmpty_iff _).mp (hkeep hgone) o'
    rw [hone] at hzero
    cases hzero
  refine ⟨?_, ?_, ?_, ?_⟩
  · intro a ha
    rcases (hrows a).mp ha with ⟨ha, -⟩ | ⟨rfl, -⟩
    · exact hnext ▸ h.addr_lt a ha
    rw [haddr]
    exact hnext ▸ h.addr_lt save hsave
  · intro a ha b hb hab
    rcases (hrows a).mp ha with ⟨ha, hane⟩ | ⟨rfl, -⟩
    · rcases (hrows b).mp hb with ⟨hb, -⟩ | ⟨rfl, -⟩
      · exact h.addr_inj a ha b hb hab
      rw [haddr] at hab
      exact (hane (h.addr_inj a ha save hsave hab)).elim
    rcases (hrows b).mp hb with ⟨hb, hbne⟩ | ⟨rfl, -⟩
    · rw [haddr] at hab
      exact (hbne (h.addr_inj save hsave b hb hab).symm).elim
    · rfl
  · intro a ha o'
    have hiff := setBind_bound_iff s' o save.key new o' a
    have hbound : s'.Bound o' a ↔ s.Bound o' a := by
      unfold State.Bound
      rw [hbinds]
    rcases (hrows a).mp ha with ⟨ha, hane⟩ | ⟨rfl, -⟩
    · have hother {x : Option Bind} (hx : ∀ b, x = some b → b.save = save.addr) :
          ¬ ∃ b, x = some b ∧ b.save = a.addr := by
        rintro ⟨b, hb, hba⟩
        rw [hx b hb] at hba
        exact hane (h.addr_inj a ha save hsave hba.symm)
      rw [h.listed a ha o']
      have hsame : (s'.setBind o save.key new).Bound o' a ↔ s.Bound o' a := by
        rw [hiff]
        split_ifs with hhere
        · refine iff_of_false (hother hnew) ?_
          unfold State.Bound
          rw [hhere.1, hhere.2]
          exact hother hold
        · exact hbound
      simp only [hsame]
    rw [hocc]
    rcases eq_or_ne o' o with rfl | hne
    · have hsome : (s'.setBind o' save.key new).Bound o' a ↔ new.isSome = true := by
        rw [hiff, if_pos ⟨rfl, hkey⟩, isSome_iff_exists]
        exact exists_congr fun b => and_iff_left_of_imp fun hb => (hnew b hb).trans haddr.symm
      simp only [if_true, hsome]
    rw [if_neg hne, h.listed save hsave o']
    have hsame : (s'.setBind o save.key new).Bound o' a ↔ s.Bound o' save := by
      rw [hiff, if_neg fun hh => hne hh.1, hbound]
      unfold State.Bound
      rw [hkey, haddr]
    simp only [hsame]
  intro o' key' b hb
  rcases setBind_eq_some hb with ⟨rfl, rfl, hsome⟩ | ⟨hother, hb'⟩
  · refine ⟨save', (hrows _).mpr (.inr ⟨rfl, hstay (show save'.occurs o' = 1 from ?_)⟩),
      haddr.trans (hnew b hsome).symm, hkey⟩
    rw [hocc, if_pos rfl, hsome]
    rfl
  rw [hbinds] at hb'
  obtain ⟨a, ha, haddr', hkey'⟩ := h.found o' key' b hb'
  by_cases hsame : a = save
  · subst hsame
    have hne : o' ≠ o := fun heq => hother ⟨heq, hkey'.symm⟩
    refine ⟨save', (hrows _).mpr (.inr ⟨rfl, hstay (show save'.occurs o' = 1 from ?_)⟩), haddr.trans haddr',
      hkey.trans hkey'⟩
    rw [hocc, if_neg hne, h.listed a ha, if_pos ⟨b, hkey' ▸ hb', haddr'.symm⟩]
  · exact ⟨a, (hrows a).mpr (.inl ⟨ha, hsame⟩), haddr', hkey'⟩

/-- **An owner is unbound**: it leaves the list, and the save with it if `keep` fails, which
it may only when nobody else is listed. -/
theorem Consistent.unbound (hsave : save ∈ s.saves.rows)
    (hbound : s.boundInstances o save.key = some bind) (haddr : save.addr = bind.save)
    (keep : Prop) (hkeep : ¬ keep → (save.remove o).isEmpty = true) (hnext : s'.next = s.next)
    (hbinds : s'.boundInstances = s.boundInstances)
    (hrows : ∀ a, a ∈ s'.saves.rows ↔ (a ∈ s.saves.rows ∧ a ≠ save) ∨ (a = save.remove o ∧ keep)) :
    Consistent (s'.setBind o save.key none) := by
  refine h.rebound keep hsave (fun b hb => ?_) nofun (save.remove_addr o) (save.remove_key o)
    (save.occurs_remove o) hkeep hnext hbinds hrows
  rw [hbound] at hb
  rw [← some.inj hb, haddr]

/-- **An owner is bound** that has no entry for the save's map and difficulty. -/
theorem Consistent.bound (hsave : save ∈ s.saves.rows)
    (hnone : s.boundInstances o save.key = none) (permanent : Bool) :
    Consistent ((s.write save (·.add o) (State.add_instanceId o)).setBind o save.key
      (some ⟨save.addr, permanent⟩)) := by
  refine h.rebound True hsave (fun b hb => ?_) (fun b hb => (some.inj hb) ▸ rfl)
    (save.add_addr o) (save.add_key o) (fun o' => ?_) (fun hF => (hF trivial).elim) rfl rfl
    fun a => by rw [mem_write hsave, and_true]
  · rw [hnone] at hb
    cases hb
  rw [save.occurs_add]
  rcases eq_or_ne o' o with rfl | hne
  · have hno : ¬ s.Bound o' save := by
      rintro ⟨b, hb, -⟩
      rw [hnone] at hb
      cases hb
    rw [h.listed save hsave, if_neg hno, Nat.zero_add]
    rfl
  · rw [if_neg hne, if_neg hne, Nat.add_zero]

theorem Consistent.erase (hsave : save ∈ s.saves.rows) (hempty : save.isEmpty = true) :
    Consistent { s with saves := s.saves.erase save.instanceId } where
  addr_lt a ha := h.addr_lt a (mem_rows_erase.mp ha).1
  addr_inj a ha b hb := h.addr_inj a (mem_rows_erase.mp ha).1 b (mem_rows_erase.mp hb).1
  listed a ha := h.listed a (mem_rows_erase.mp ha).1
  found o key bind hbind := by
    obtain ⟨a, ha, haddr, hkey⟩ := h.found o key bind hbind
    refine ⟨a, mem_rows_erase.mpr ⟨ha, fun hid => ?_⟩, haddr, hkey⟩
    obtain rfl := s.saves.distinct.eq_of_key ha hsave hid
    have hzero := (InstanceSave.isEmpty_iff a).mp hempty o
    rw [h.listed a ha, if_pos ⟨bind, hkey ▸ hbind, haddr.symm⟩] at hzero
    cases hzero

theorem Consistent.write_same (hf : ∀ a, (f a).instanceId = a.instanceId)
    (hsame : ∀ a, (f a).addr = a.addr ∧ (f a).key = a.key ∧ ∀ o, (f a).occurs o = a.occurs o) :
    Consistent (s.write save f hf) := by
  have hrow : ∀ a ∈ (s.write save f hf).saves.rows, ∃ b ∈ s.saves.rows, a.addr = b.addr ∧
      a.key = b.key ∧ (∀ o, a.occurs o = b.occurs o) ∧
      (a = b ∧ b.instanceId ≠ save.instanceId ∨ a = f b ∧ b.instanceId = save.instanceId) := by
    intro a ha
    rcases (mem_rows_modify hf).mp ha with ⟨ha, hne⟩ | ⟨b, hb, heq, rfl⟩
    · exact ⟨a, ha, rfl, rfl, fun _ => rfl, .inl ⟨rfl, hne⟩⟩
    · exact ⟨b, hb, (hsame b).1, (hsame b).2.1, (hsame b).2.2, .inr ⟨rfl, heq⟩⟩
  refine ⟨?_, ?_, ?_, ?_⟩
  · intro a ha
    obtain ⟨b, hb, haddr, -⟩ := hrow a ha
    exact haddr ▸ h.addr_lt b hb
  · intro a ha a' ha' heq
    obtain ⟨b, hb, haddr, -, -, hcase⟩ := hrow a ha
    obtain ⟨b', hb', haddr', -, -, hcase'⟩ := hrow a' ha'
    obtain rfl := h.addr_inj b hb b' hb' (haddr.symm.trans (heq.trans haddr'))
    rcases hcase with ⟨rfl, hne⟩ | ⟨rfl, hid⟩
    · rcases hcase' with ⟨rfl, -⟩ | ⟨-, hid⟩
      · rfl
      · exact (hne hid).elim
    rcases hcase' with ⟨-, hne⟩ | ⟨rfl, -⟩
    · exact (hne hid).elim
    · rfl
  · intro a ha o
    obtain ⟨b, hb, haddr, hkey, hoccurs, -⟩ := hrow a ha
    have hbound : (s.write save f hf).Bound o a ↔ s.Bound o b := by
      unfold State.Bound
      rw [haddr, hkey]
      rfl
    simp only [hoccurs, h.listed b hb o, hbound]
  intro o key bind hbind
  obtain ⟨b, hb, haddr, hkey⟩ := h.found o key bind hbind
  by_cases hid : b.instanceId = save.instanceId
  · exact ⟨f b, (mem_rows_modify hf).mpr (.inr ⟨b, hb, hid, rfl⟩),
      (hsame b).1.trans haddr, (hsame b).2.1.trans hkey⟩
  · exact ⟨b, (mem_rows_modify hf).mpr (.inl ⟨hb, hid⟩), haddr, hkey⟩

end

/-! ### Operations -/

theorem Consistent.addInstanceSave (h : Consistent s) (maps : Maps)
    (mapId instanceId difficulty : ℕ) (canReset : Bool) :
    Consistent (s.addInstanceSave maps mapId instanceId difficulty canReset) := by
  unfold State.addInstanceSave
  split
  · exact h
  next hnew =>
    split
    · exact h
    split
    · exact h
    split
    · exact h
    obtain ⟨new, hnewsave⟩ : ∃ new : InstanceSave, new =
        { addr := s.next, instanceId, key := ⟨mapId % 2 ^ 16, difficulty⟩, canReset } := ⟨_, rfl⟩
    rw [← hnewsave]
    have haddr : new.addr = s.next := by rw [hnewsave]
    have hid : ∀ a ∈ s.saves.rows, a.instanceId ≠ new.instanceId := by
      intro a ha heq
      have hget := get?_key ha
      rw [heq, hnewsave] at hget
      rw [hget] at hnew
      exact hnew rfl
    have hrows : ∀ a, a ∈ (s.saves.put new).rows ↔ a = new ∨ a ∈ s.saves.rows := by
      intro a
      rw [mem_rows_put]
      exact or_congr_right ⟨And.left, fun ha => ⟨ha, hid a ha⟩⟩
    refine ⟨?_, ?_, ?_, ?_⟩
    · intro a ha
      rcases (hrows a).mp ha with rfl | ha
      · rw [haddr]
        exact Nat.lt_succ_self _
      · exact Nat.lt_succ_of_lt (h.addr_lt a ha)
    · intro a ha b hb hab
      rcases (hrows a).mp ha with rfl | ha'
      · rcases (hrows b).mp hb with rfl | hb'
        · rfl
        have := h.addr_lt b hb'
        omega
      rcases (hrows b).mp hb with rfl | hb'
      · have := h.addr_lt a ha'
        omega
      · exact h.addr_inj a ha' b hb' hab
    · intro a ha o
      rcases (hrows a).mp ha with rfl | ha
      · rw [if_neg]
        · rw [hnewsave]
          cases o <;> rfl
        rintro ⟨bind, hbind, hsave⟩
        obtain ⟨b, hb, hbaddr, -⟩ := h.found o _ bind hbind
        have := h.addr_lt b hb
        omega
      · exact h.listed a ha o
    intro o key bind hbind
    obtain ⟨a, ha, haddr', hkey⟩ := h.found o key bind hbind
    exact ⟨a, (hrows a).mpr (.inr ha), haddr', hkey⟩

/-- **`RemovePlayer` and `RemoveGroup`** of an owner that is bound. -/
theorem Consistent.removeOwner (h : Consistent s) (hbound : s.boundInstances o key = some bind) :
    ∃ s', s.removeOwner o bind.save = some s' ∧ Consistent (s'.setBind o key none) ∧
      s'.lock = s.lock ∧ (∀ a ∈ s.saves.rows, a.addr ≠ bind.save → a ∈ s'.saves.rows) ∧
      (s.lock = true → ∀ a ∈ s.saves.rows, a.addr = bind.save → a.remove o ∈ s'.saves.rows) := by
  obtain ⟨save, hsave, haddr, rfl⟩ := h.found o key bind hbound
  have hderef := h.deref hsave
  rw [haddr] at hderef
  unfold State.removeOwner
  rw [hderef]
  dsimp only
  obtain ⟨s1, hs1⟩ :
      ∃ s1, s1 = s.write save (·.remove o) (State.remove_instanceId o) := ⟨_, rfl⟩
  rw [← hs1]
  have hrows : ∀ a, a ∈ s1.saves.rows ↔ (a ∈ s.saves.rows ∧ a ≠ save) ∨ a = save.remove o := by
    intro a
    rw [hs1]
    exact mem_write hsave _
  have hlock : s1.lock = s.lock := by
    rw [hs1]
    rfl
  have hbinds : s1.boundInstances = s.boundInstances := by
    rw [hs1]
    rfl
  have hnext : s1.next = s.next := by
    rw [hs1]
    rfl
  split_ifs with hunload
  · rw [Bool.and_eq_true, Bool.not_eq_true'] at hunload
    have hget : s1.saves.get? save.instanceId = some (save.remove o) :=
      get?_eq_some.mpr ⟨(hrows _).mpr (.inr rfl), State.remove_instanceId o save⟩
    refine ⟨{ s1 with saves := s1.saves.erase save.instanceId }, ?_, ?_, hlock, ?_, ?_⟩
    · unfold State.removeInstanceSave
      rw [hget]
      exact if_pos hunload.1
    · have hgone : ∀ a, a ∈ (s1.saves.erase save.instanceId).rows ↔
          (a ∈ s.saves.rows ∧ a ≠ save) ∨ (a = save.remove o ∧ False) := by
        intro a
        rw [mem_rows_erase, hrows]
        constructor
        · rintro ⟨ha | rfl, hid⟩
          · exact .inl ha
          · exact (hid (State.remove_instanceId o save)).elim
        rintro (⟨ha, hne⟩ | ⟨-, hF⟩)
        · exact ⟨.inl ⟨ha, hne⟩, fun hid => hne (s.saves.distinct.eq_of_key ha hsave hid)⟩
        · exact hF.elim
      exact h.unbound hsave hbound haddr _ (fun _ => hunload.1) hnext hbinds hgone
    · intro a ha hne
      refine mem_rows_erase.mpr ⟨(hrows a).mpr (.inl ⟨ha, ?_⟩), fun hid => ?_⟩
      · exact fun heq => hne (heq ▸ haddr)
      · exact hne (s.saves.distinct.eq_of_key ha hsave hid ▸ haddr)
    intro hlocked
    rw [hlock] at hunload
    rw [hlocked] at hunload
    cases hunload.2
  refine ⟨s1, rfl, ?_, hlock, ?_, ?_⟩
  · exact h.unbound hsave hbound haddr True (fun hF => (hF trivial).elim) hnext hbinds
      fun a => by rw [hrows, and_true]
  · exact fun a ha hne => (hrows a).mpr (.inl ⟨ha, fun heq => hne (heq ▸ haddr)⟩)
  intro _ a ha heq
  obtain rfl := h.addr_inj a ha save hsave (heq.trans haddr.symm)
  exact (hrows _).mpr (.inr rfl)

theorem Consistent.unbindInstance (h : Consistent s) (o : Owner) (key : Key) :
    ∃ s', s.unbindInstance o key = some s' ∧ Consistent s' ∧ s'.lock = s.lock := by
  unfold State.unbindInstance
  cases hbound : s.boundInstances o key with
  | none => exact ⟨s, rfl, h, rfl⟩
  | some bind =>
    obtain ⟨s', hs', hcons, hlock, -⟩ := h.removeOwner hbound
    refine ⟨s'.setBind o key none, ?_, hcons, hlock⟩
    dsimp only [bind_eq_bind]
    rw [hs']
    rfl

theorem setBind_setBind (b b' : Option Bind) :
    (s.setBind o key b).setBind o key b' = s.setBind o key b' := by
  unfold State.setBind
  simp

/-- **`BindToInstance`**: a bind to another save of the map and difficulty is replaced. -/
theorem Consistent.bindTo (h : Consistent s) (hsave : save ∈ s.saves.rows) (o : Owner)
    (permanent : Bool) :
    ∃ s', s.bindTo o save permanent = some s' ∧ Consistent s' ∧ s'.lock = s.lock := by
  unfold State.bindTo
  cases hbound : s.boundInstances o save.key with
  | none =>
    refine ⟨_, ?_, h.bound hsave hbound permanent, rfl⟩
    rw [h.deref hsave]
    rfl
  | some bind =>
    dsimp only
    split_ifs with hother
    · obtain ⟨s1, hs1, hcons, hlock, hkept, -⟩ := h.removeOwner hbound
      have hsave1 : save ∈ s1.saves.rows := hkept save hsave (Ne.symm hother)
      have hderef : s1.deref save.addr = some save := hcons.deref (s := s1.setBind o save.key none) hsave1
      have hnone : (s1.setBind o save.key none).boundInstances o save.key = none := by
        unfold State.setBind
        simp
      refine ⟨_, ?_, hcons.bound hsave1 hnone permanent, hlock⟩
      rw [hs1]
      dsimp only [bind_eq_bind, bind_some]
      rw [hderef]
      dsimp only [bind_some, pure]
      rw [← setBind_setBind none]
      rfl
    -- the bind is there already; only its permanence changes
    rw [not_not] at hother
    refine ⟨_, rfl, ?_, rfl⟩
    refine ⟨h.addr_lt, h.addr_inj, fun a ha o' => ?_, fun o' key' b hb => ?_⟩
    · have hsame : (s.setBind o save.key (some ⟨save.addr, permanent⟩)).Bound o' a ↔
          s.Bound o' a := by
        rw [setBind_bound_iff]
        split_ifs with hhere
        · unfold State.Bound
          rw [hhere.1, hhere.2, hbound]
          simp [hother]
        · rfl
      rw [h.listed a ha o']
      simp only [hsame]
    rcases setBind_eq_some hb with ⟨-, rfl, hsome⟩ | ⟨-, hb⟩
    · exact ⟨save, hsave, some.inj hsome ▸ rfl, rfl⟩
    · exact h.found o' key' b hb

/-- **The loops of `_ResetSave` end**, each with its list empty.  `len` is the length of the
list whose head `first` reads; `Q` is what holds of the save apart from that list. -/
theorem Consistent.unbindWhile (first : InstanceSave → Option Owner) (len : InstanceSave → ℕ)
    (Q : InstanceSave → Prop) (hnone : ∀ a, first a = none ↔ len a = 0)
    (hsome : ∀ a o, first a = some o → 0 < a.occurs o ∧ (a.occurs o = 1 → len (a.remove o) < len a))
    (hQ : ∀ a o, Q a → Q (a.remove o)) (rounds : ℕ) :
    ∀ (s : State) (save : InstanceSave), Consistent s → s.lock = true → save ∈ s.saves.rows →
      Q save → len save ≤ rounds →
      ∃ s' save', State.unbindWhile first save.addr rounds s = some s' ∧ Consistent s' ∧
        s'.lock = true ∧ save' ∈ s'.saves.rows ∧ save'.addr = save.addr ∧
        save'.instanceId = save.instanceId ∧ Q save' ∧ len save' = 0 := by
  induction rounds with
  | zero =>
    intro s save h hlock hsave hq hlen
    refine ⟨s, save, ?_, h, hlock, hsave, rfl, rfl, hq, Nat.le_zero.mp hlen⟩
    unfold State.unbindWhile
    rw [h.deref hsave, bind_some, (hnone save).mpr (Nat.le_zero.mp hlen)]
    rfl
  | succ rounds ih =>
    intro s save h hlock hsave hq hlen
    cases hfirst : first save with
    | none =>
      refine ⟨s, save, ?_, h, hlock, hsave, rfl, rfl, hq, (hnone save).mp hfirst⟩
      unfold State.unbindWhile
      rw [h.deref hsave]
      dsimp only
      rw [hfirst]
    | some o =>
      obtain ⟨hpos, hshort⟩ := hsome save o hfirst
      -- who is listed is bound to this save
      have hbound : s.Bound o save := by
        by_contra hnot
        rw [h.listed save hsave o, if_neg hnot] at hpos
        exact Nat.lt_irrefl 0 hpos
      have hone : save.occurs o = 1 := by rw [h.listed save hsave o, if_pos hbound]
      obtain ⟨bind, hbind, haddr⟩ := hbound
      obtain ⟨s1, hs1, hcons, hlock1, -, hrow⟩ := h.removeOwner hbind
      have hsave1 : save.remove o ∈ (s1.setBind o save.key none).saves.rows :=
        hrow hlock save hsave haddr.symm
      obtain ⟨s', save', hs', h', hlock', hsave', haddr', hid', hq', hlen'⟩ :=
        ih (s1.setBind o save.key none) (save.remove o) hcons (hlock1.trans hlock) hsave1
          (hQ save o hq) (by omega)
      refine ⟨s', save', ?_, h', hlock', hsave', haddr'.trans (save.remove_addr o),
        hid'.trans (State.remove_instanceId o save), hq', hlen'⟩
      rw [save.remove_addr] at hs'
      unfold State.unbindWhile
      rw [h.deref hsave]
      dsimp only
      rw [hfirst]
      unfold State.unbindInstance
      dsimp only
      rw [hbind]
      dsimp only [bind_eq_bind]
      rw [hs1]
      exact hs'

theorem length_filter_lt {l : List ℕ} {x : ℕ} (h : l.count x = 1) :
    (l.filter (· ≠ x)).length < l.length := by
  refine length_filter_lt_length_iff_exists.mpr ⟨x, ?_, by simp⟩
  exact count_pos_iff.mp (h ▸ Nat.one_pos)

/-- **`_ResetSave`** unbinds everybody and deletes the save. -/
theorem Consistent.resetSave (h : Consistent s) (hsave : save ∈ s.saves.rows) :
    ∃ s', s.resetSave save = some s' ∧ Consistent s' ∧ s'.lock = false := by
  have hlocked : Consistent { s with lock := true } := { h with }
  obtain ⟨s1, save1, hs1, h1, hlock1, hsave1, haddr1, hid1, hgroup1, hplayer1⟩ :=
    Consistent.unbindWhile (·.playerList.head?.map .player) (·.playerList.length)
      (·.groupList.length ≤ save.groupList.length)
      (fun a => by simp)
      (fun a o ho => by
        obtain ⟨p, hp, rfl⟩ := map_eq_some_iff.mp ho
        refine ⟨count_pos_iff.mpr (mem_of_mem_head? hp), length_filter_lt⟩)
      (fun a o hq => by
        cases o with
        | player p => exact hq
        | group g => exact (length_filter_le _ _).trans hq)
      save.playerList.length { s with lock := true } save hlocked rfl hsave (le_refl _) (le_refl _)
  obtain ⟨s2, save2, hs2, h2, hlock2, hsave2, haddr2, hid2, hplayer2, hgroup2⟩ :=
    Consistent.unbindWhile (·.groupList.head?.map .group) (·.groupList.length)
      (·.playerList.length = 0)
      (fun a => by simp)
      (fun a o ho => by
        obtain ⟨g, hg, rfl⟩ := map_eq_some_iff.mp ho
        refine ⟨count_pos_iff.mpr (mem_of_mem_head? hg), length_filter_lt⟩)
      (fun a o hq => by
        cases o with
        | player p => exact Nat.le_zero.mp ((length_filter_le _ _).trans hq.le)
        | group g => exact hq)
      save.groupList.length s1 save1 h1 hlock1 hsave1 hplayer1 hgroup1
  have hempty : save2.isEmpty = true := by
    unfold InstanceSave.isEmpty
    rw [length_eq_zero_iff.mp hplayer2, length_eq_zero_iff.mp hgroup2]
    rfl
  have hget : s2.saves.get? save.instanceId = some save2 :=
    get?_eq_some.mpr ⟨hsave2, hid2.trans hid1⟩
  have herased := h2.erase hsave2 hempty
  rw [hid2, hid1] at herased
  refine ⟨{ s2 with saves := s2.saves.erase save.instanceId, lock := false }, ?_,
    { herased with }, rfl⟩
  rw [haddr1] at hs2
  unfold State.resetSave
  dsimp only [bind_eq_bind]
  rw [hs1, bind_some, hs2, bind_some]
  unfold State.removeInstanceSave
  rw [hget]
  dsimp only
  rw [if_pos hempty]
  rfl

theorem Consistent.resetAll (h : Consistent s) (hlock : s.lock = false) (maps : Maps) (key : Key) :
    ∃ s', s.resetAll maps key = some s' ∧ Consistent s' ∧ s'.lock = false := by
  have hfold : ∀ (l : List InstanceSave) (s : State), Consistent s → s.lock = false →
      ∃ s', l.foldlM (fun s save =>
        match s.saves.get? save.instanceId with
        | none => some s
        | some save => s.resetSave save) s = some s' ∧ Consistent s' ∧ s'.lock = false := by
    intro l
    induction l with
    | nil => exact fun s h hlock => ⟨s, rfl, h, hlock⟩
    | cons a l ih =>
      intro s h hlock
      rw [foldlM_cons]
      cases hget : s.saves.get? a.instanceId with
      | none => exact ih s h hlock
      | some save =>
        obtain ⟨s1, hs1, h1, hlock1⟩ := h.resetSave (get?_eq_some.mp hget).1
        dsimp only [bind_eq_bind]
        rw [hs1]
        exact ih s1 h1 hlock1
  unfold State.resetAll
  split_ifs
  · exact ⟨s, rfl, h, hlock⟩
  · exact hfold _ s h hlock

/-- **Every operation goes through** and keeps saves and binds in agreement. -/
theorem Consistent.step (h : Consistent s) (hlock : s.lock = false) (maps : Maps) (op : Op) :
    ∃ s', step maps s op = some s' ∧ Consistent s' ∧ s'.lock = false := by
  cases op with
  | addInstanceSave mapId instanceId difficulty canReset =>
    refine ⟨_, rfl, h.addInstanceSave maps mapId instanceId difficulty canReset, ?_⟩
    unfold State.addInstanceSave
    split_ifs <;> exact hlock
  | playerBind player instanceId permanent =>
    show ∃ s', s.playerBindToInstance player instanceId permanent = some s' ∧ _
    unfold State.playerBindToInstance
    cases hget : s.saves.get? instanceId with
    | none => exact ⟨s, rfl, h, hlock⟩
    | some save =>
      obtain ⟨s1, hs1, h1, hlock1⟩ :=
        h.bindTo (get?_eq_some.mp hget).1 (.player player) permanent
      dsimp only
      rw [hs1]
      refine ⟨_, rfl, ?_, ?_⟩
      · split_ifs
        · exact h1.write_same _ fun a => ⟨rfl, rfl, fun o => by cases o <;> rfl⟩
        · exact h1
      · split_ifs <;> exact hlock1.trans hlock
  | playerUnbind player key =>
    obtain ⟨s', hs', h', hlock'⟩ := h.unbindInstance (.player player) key
    exact ⟨s', hs', h', hlock'.trans hlock⟩
  | groupBind group instanceId permanent isBgOrBfGroup =>
    show ∃ s', s.groupBindToInstance group instanceId permanent isBgOrBfGroup = some s' ∧ _
    unfold State.groupBindToInstance
    cases hget : s.saves.get? instanceId with
    | none => exact ⟨s, rfl, h, hlock⟩
    | some save =>
      split_ifs
      · exact ⟨s, rfl, h, hlock⟩
      obtain ⟨s1, hs1, h1, hlock1⟩ :=
        h.bindTo (get?_eq_some.mp hget).1 (.group group) permanent
      exact ⟨s1, hs1, h1, hlock1.trans hlock⟩
  | groupUnbind group key =>
    obtain ⟨s', hs', h', hlock'⟩ := h.unbindInstance (.group group) key
    exact ⟨s', hs', h', hlock'.trans hlock⟩
  | resetInstance mapId instanceId =>
    show ∃ s', s.resetInstance maps mapId instanceId = some s' ∧ _
    unfold State.resetInstance
    split_ifs
    · exact ⟨s, rfl, h, hlock⟩
    cases hget : s.saves.get? instanceId with
    | none => exact ⟨s, rfl, h, hlock⟩
    | some save => exact h.resetSave (get?_eq_some.mp hget).1
  | resetAll key => exact h.resetAll hlock maps key

end Agree

/-- **Binds are consistent.**  Every sequence of operations goes through: no pointer to a
deleted save is followed, no save is deleted while somebody is listed, and the loops end.
After it a player or group is listed exactly once by a save if its entry for the save's map
and difficulty points to the save, and not at all otherwise, and every bind points to a save
of the manager. -/
theorem binds_consistent (maps : Maps) (ops : List Op) : ∃ s, ops.foldlM (step maps) {} = some s ∧
      (∀ save ∈ s.saves.rows, ∀ o,
        (save.occurs o = 1 ↔ s.Bound o save) ∧ (save.occurs o = 0 ↔ ¬ s.Bound o save)) ∧
      ∀ o key bind, s.boundInstances o key = some bind →
        ∃ save ∈ s.saves.rows, save.addr = bind.save ∧ save.key = key := by
  have hrun : ∀ (ops : List Op) (s : State), Consistent s → s.lock = false →
      ∃ s', ops.foldlM (step maps) s = some s' ∧ Consistent s' := by
    intro ops
    induction ops with
    | nil => exact fun s h _ => ⟨s, rfl, h⟩
    | cons op ops ih =>
      intro s h hlock
      obtain ⟨s1, hs1, h1, hlock1⟩ := h.step hlock maps op
      obtain ⟨s', hs', h'⟩ := ih s1 h1 hlock1
      refine ⟨s', ?_, h'⟩
      rw [foldlM_cons, hs1]
      exact hs'
  obtain ⟨s, hs, h⟩ := hrun ops {} consistent_empty rfl
  refine ⟨s, hs, fun save hsave o => ?_, h.found⟩
  rw [h.listed save hsave o]
  split_ifs with hbound <;> simp [hbound]

/-- Player `1` moves from instance `5` to instance `6` of the map, which unloads instance `5`;
a group joins and the map is reset. -/
example :
    let maps : Maps := ⟨fun _ => true, fun _ => false, fun _ => true⟩
    let ops : List Op := [.addInstanceSave 33 5 0 true, .playerBind 1 5 false,
      .addInstanceSave 33 6 0 true, .playerBind 1 6 false, .groupBind 9 6 true false]
    (ops.foldlM (step maps) {}).map (fun s : State => s.saves.rows.map fun a =>
        (a.instanceId, a.playerList, a.groupList)) = some [(6, [1], [9])] ∧
      ((ops ++ [Op.resetAll ⟨33, 0⟩]).foldlM (step maps) {}).map (fun s : State =>
        (s.saves.rows.length, s.boundInstances (.player 1) ⟨33, 0⟩)) = some (0, none) := by
  decide

end ZerosCore.InstanceBinds
