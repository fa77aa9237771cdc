/-
# Pools that are in pools are a forest

`PoolMgr::LoadFromDB` fills the groups and the search maps row by row, and then walks from
every pool to the pools it is in; a walk that comes back to itself closes a circle, whose
last link is removed.  The walks start from all pools but the last one, which is enough,
since no pool is in itself.

If no table names a member twice, the groups and the search maps say the same, and the
pools that are in pools form a forest (`exists_forest`), so that what recurses into them
comes to an end (`spawnPool_deep`), and whatever is spawned, despawned and updated: every
counter is the number of spawned members and within its limit (`pools_right`).  The loading
does not ask whether a creature is in two pools, and then one of them counts it and the other
does not (`creature_in_two_pools`).
-/

import ZerosCore.Pools.Counters
import Mathlib.Data.List.NodupEquivFin

namespace ZerosCore.Pools

open List PoolMgr

/-! ### Rows -/

/-- What the rows of the tables leave: a member is in the group of a pool exactly if the
search map says so, and once, and pools are in other pools within range. -/
structure Keyed (c : PoolMgr) : Prop where
  keyed : ∀ kind g p, g ∈ c.members kind p ↔ c.search kind g = some p
  nodup : ∀ kind p, (c.members kind p).Nodup
  inRange : ∀ g p, c.search .pool g = some p → g ≤ c.maxPoolId ∧ p ≤ c.maxPoolId ∧ g ≠ p

variable {c : PoolMgr} {kind : Kind} {p g child mother : ℕ} {row : Row} {rows : List Row}
  {search : ℕ → Option ℕ}

theorem mem_addEntry (group : PoolGroup) (row : Row) (n : ℕ) :
    (g ∈ (group.addEntry row n).members ↔ g = row.guid ∨ g ∈ group.members) ∧
      (row.guid ∉ group.members → group.members.Nodup → (group.addEntry row n).members.Nodup) := by
  unfold PoolGroup.addEntry PoolGroup.members
  split
  · constructor
    · simp only [mem_append, mem_singleton]
      tauto
    intro hnew hnodup
    rw [← append_assoc]
    refine nodup_append.mpr ⟨hnodup, nodup_singleton _, fun a ha b hb heq => ?_⟩
    rw [heq, mem_singleton.mp hb] at ha
    exact hnew ha
  constructor
  · simp only [mem_append, mem_singleton]
    tauto
  intro hnew hnodup
  rw [append_assoc]
  obtain ⟨hequal, hexplicit, hapart⟩ := nodup_append.mp hnodup
  rw [mem_append, not_or] at hnew
  refine nodup_append.mpr ⟨hequal, nodup_cons.mpr ⟨hnew.2, hexplicit⟩, fun a ha b hb heq => ?_⟩
  rcases mem_cons.mp hb with rfl | hrest
  · exact hnew.1 (heq ▸ ha)
  · exact hapart a ha b hrest heq

theorem keyed_addRow (hc : Keyed c) (hnew : c.search kind row.guid = none) :
    Keyed (c.addRow kind row) ∧ (c.addRow kind row).maxPoolId = c.maxPoolId ∧
      (∀ k, k ≠ kind → (c.addRow kind row).search k = c.search k) ∧
      ∀ g, g ≠ row.guid → (c.addRow kind row).search kind g = c.search kind g := by
  rw [addRow]
  split
  · exact ⟨hc, rfl, fun _ _ => rfl, fun _ _ => rfl⟩
  rename_i hpool
  split
  · exact ⟨hc, rfl, fun _ _ => rfl, fun _ _ => rfl⟩
  rename_i hself
  refine ⟨⟨fun k g p => ?_, fun k p => ?_, fun g p hg => ?_⟩, rfl, fun k hk => ?_, fun g hg => ?_⟩
  · have hkeyed := hc.keyed k g p
    simp only [members] at hkeyed ⊢
    by_cases hk : k = kind
    · subst hk
      by_cases hp : p = row.poolId
      · subst hp
        by_cases hg : g = row.guid
        · subst hg
          simp [(mem_addEntry _ row _).1, hnew]
        · simp [(mem_addEntry _ row _).1, hg, hkeyed]
      by_cases hg : g = row.guid
      · subst hg
        simp [hp, hkeyed, hnew, Ne.symm hp]
      · simp [hp, hg, hkeyed]
    · simp [hk, hkeyed]
  · have hnodup := hc.nodup k p
    simp only [members] at hnodup ⊢
    split
    · rename_i hrow
      refine (mem_addEntry (g := 0) _ row _).2 (fun hmem => ?_) hnodup
      rw [hrow.1] at hmem
      have hsearch := (hc.keyed kind row.guid p).mp hmem
      rw [hnew] at hsearch
      cases hsearch
    · exact hnodup
  · dsimp only at hg ⊢
    split at hg
    · rename_i hrow
      cases hg
      rw [not_and, not_or] at hself
      obtain ⟨hchild, hne⟩ := hself hrow.1.symm
      rw [hrow.2.1]
      exact ⟨by omega, by omega, fun heq => hne heq.symm⟩
    · exact hc.inRange g p hg
  · funext g
    exact if_neg fun h => hk h.1
  · exact if_neg fun h => hg h.2.1

theorem keyed_table (hrows : (rows.map Row.guid).Nodup) (hc : Keyed c)
    (hnew : ∀ row ∈ rows, c.search kind row.guid = none) : Keyed (rows.foldl (addRow kind) c) ∧
      (rows.foldl (addRow kind) c).maxPoolId = c.maxPoolId ∧
      ∀ k, k ≠ kind → (rows.foldl (addRow kind) c).search k = c.search k := by
  induction rows generalizing c with
  | nil => exact ⟨hc, rfl, fun _ _ => rfl⟩
  | cons row rows ih =>
    rw [map_cons, nodup_cons] at hrows
    obtain ⟨hkeyed, hmax, hkinds, hothers⟩ := keyed_addRow hc (hnew row mem_cons_self)
    obtain ⟨hrest, hmaxRest, hkindsRest⟩ := ih hrows.2 hkeyed fun r hr => by
      rw [hothers r.guid fun heq => hrows.1 (heq ▸ mem_map_of_mem hr)]
      exact hnew r (mem_cons_of_mem row hr)
    exact ⟨hrest, hmaxRest.trans hmax, fun k hk => (hkindsRest k hk).trans (hkinds k hk)⟩

/-! ### Walks -/

/-- The pools from one up to one that is in no other. -/
inductive Path (search : ℕ → Option ℕ) : ℕ → List ℕ → Prop where
  | root {p : ℕ} : search p = none → Path search p [p]
  | up {p m : ℕ} {l : List ℕ} : search p = some m → Path search m l → Path search p (p :: l)

/-- The link of a pool to the one it is in is removed. -/
def unlink (search : ℕ → Option ℕ) (child : ℕ) (g : ℕ) : Option ℕ :=
  if g = child then none else search g

variable {l : List ℕ}

theorem Path.unlink (h : Path search p l) (child : ℕ) : ∃ l', Path (unlink search child) p l' := by
  induction h with
  | root hroot =>
    refine ⟨_, .root ?_⟩
    unfold Pools.unlink
    split
    · rfl
    · exact hroot
  | @up p m l hup hrest ih =>
    obtain ⟨l', hl'⟩ := ih
    by_cases hp : p = child
    · exact ⟨_, .root (if_pos hp)⟩
    · exact ⟨_, .up ((if_neg hp).trans hup) hl'⟩

theorem Path.unique {l' : List ℕ} (h : Path search p l) (h' : Path search p l') : l = l' := by
  induction h generalizing l' with
  | root hroot =>
    cases h' with
    | root => rfl
    | up hup =>
      rw [hroot] at hup
      cases hup
  | up hup hrest ih =>
    cases h' with
    | root hroot =>
      rw [hroot] at hup
      cases hup
    | up hup' hrest' =>
      rw [hup] at hup'
      cases hup'
      rw [ih hrest']

theorem Path.suffix (h : Path search p l) {q : ℕ} (hq : q ∈ l) :
    ∃ l', Path search q l' ∧ l'.length ≤ l.length := by
  induction h with
  | root hroot =>
    rw [mem_singleton.mp hq]
    exact ⟨_, .root hroot, Nat.le_refl _⟩
  | up hup hrest ih =>
    rcases mem_cons.mp hq with rfl | hmem
    · exact ⟨_, .up hup hrest, Nat.le_refl _⟩
    obtain ⟨l', hl', hle⟩ := ih hmem
    exact ⟨l', hl', Nat.le_succ_of_le hle⟩

theorem Path.nodup (h : Path search p l) : l.Nodup := by
  induction h with
  | root => exact nodup_singleton _
  | up hup hrest ih =>
    refine nodup_cons.mpr ⟨fun hmem => ?_, ih⟩
    obtain ⟨l', hl', hle⟩ := hrest.suffix hmem
    rw [hl'.unique (.up hup hrest), length_cons] at hle
    omega

theorem length_le_of_nodup {n : ℕ} (hl : l.Nodup) (hle : ∀ x ∈ l, x ≤ n) : l.length ≤ n + 1 := by
  have hsub : l.Subperm (List.range (n + 1)) := subperm_of_subset hl fun x hx =>
    mem_range.mpr (Nat.lt_succ_of_le (hle x hx))
  have hlength := hsub.length_le
  rwa [length_range] at hlength

variable {max : ℕ}

/-- **A walk** that finds no circle comes to an end. -/
theorem walk_none (hrange : ∀ g p, search g = some p → g ≤ max ∧ p ≤ max ∧ g ≠ p)
    (n : ℕ) (checked : List ℕ) (hn : max + 2 ≤ n + checked.length) (hchecked : checked.Nodup)
    (hle : ∀ x ∈ checked, x ≤ max) (hp : p ∉ checked)
    (hwalk : walk search n checked p = none) : ∃ l, Path search p l := by
  induction n generalizing checked p with
  | zero =>
    have hlength := length_le_of_nodup hchecked hle
    omega
  | succ n ih =>
    rw [walk] at hwalk
    cases hup : search p with
    | none => exact ⟨_, .root hup⟩
    | some m =>
      rw [hup] at hwalk
      dsimp only at hwalk
      split at hwalk
      · cases hwalk
      rename_i hnew
      obtain ⟨hpmax, -, -⟩ := hrange p m hup
      obtain ⟨l, hl⟩ := ih (p :: checked) (by rw [length_cons]; omega)
        (nodup_cons.mpr ⟨hp, hchecked⟩)
        (fun x hx => (mem_cons.mp hx).elim (fun heq => heq ▸ hpmax) (hle x)) hnew hwalk
      exact ⟨_, .up hup hl⟩

/-- One link of a walk that finds a circle. -/
theorem walk_succ {n : ℕ} {checked : List ℕ}
    (h : walk search (n + 1) checked p = some (child, mother)) : ∃ m, search p = some m ∧
      (m ∈ p :: checked ∧ p = child ∧ m = mother ∨
        m ∉ p :: checked ∧ walk search n (p :: checked) m = some (child, mother)) := by
  rw [walk] at h
  split at h
  · cases h
  rename_i m hup
  refine ⟨m, hup, ?_⟩
  split at h
  · rename_i hmem
    cases h
    exact .inl ⟨hmem, rfl, rfl⟩
  · rename_i hnew
    exact .inr ⟨hnew, h⟩

/-- **A walk** that finds a circle comes to an end without its last link. -/
theorem walk_some (n : ℕ) (checked : List ℕ)
    (hwalk : walk search n checked p = some (child, mother)) :
    search child = some mother ∧ ∃ l, Path (unlink search child) p l := by
  induction n generalizing checked p with
  | zero => cases hwalk
  | succ n ih =>
    obtain ⟨m, hup, ⟨-, rfl, rfl⟩ | ⟨-, hrest⟩⟩ := walk_succ hwalk
    · exact ⟨hup, _, .root (if_pos rfl)⟩
    obtain ⟨hlink, l, hl⟩ := ih (p :: checked) hrest
    refine ⟨hlink, ?_⟩
    by_cases hp : p = child
    · exact ⟨_, .root (if_pos hp)⟩
    · exact ⟨_, .up ((if_neg hp).trans hup) hl⟩

/-! ### Links that are removed -/

theorem mem_erase_relation (group : PoolGroup) (hnodup : group.members.Nodup) :
    (g ∈ (group.removeOneRelation child).members ↔ g ≠ child ∧ g ∈ group.members) ∧
      (group.removeOneRelation child).members.Nodup := by
  rw [PoolGroup.members] at hnodup
  simp only [PoolGroup.removeOneRelation, PoolGroup.members]
  obtain ⟨hequal, hexplicit, hapart⟩ := nodup_append.mp hnodup
  constructor
  · simp only [mem_append, hequal.mem_erase_iff, hexplicit.mem_erase_iff]
    tauto
  exact nodup_append.mpr ⟨hequal.erase child, hexplicit.erase child, fun a ha b hb =>
    hapart a (mem_of_mem_erase ha) b (mem_of_mem_erase hb)⟩

theorem keyed_removeLink (hc : Keyed c) (hlink : c.search .pool child = some mother) :
    Keyed (c.removeLink child mother) := by
  refine ⟨fun kind g p => ?_, fun kind p => ?_, fun g p hg => ?_⟩
  · have hkeyed := hc.keyed kind g p
    have hnodup := hc.nodup kind p
    simp only [members, removeLink] at hkeyed hnodup ⊢
    by_cases hkind : kind = .pool
    · subst hkind
      by_cases hp : p = mother
      · subst hp
        by_cases hg : g = child
        · simp [(mem_erase_relation _ hnodup).1, hg]
        · simp [(mem_erase_relation _ hnodup).1, hg, hkeyed]
      by_cases hg : g = child
      · subst hg
        simp [hp, hkeyed, hlink, Ne.symm hp]
      · simp [hp, hg, hkeyed]
    · simp [hkind, hkeyed]
  · have hnodup := hc.nodup kind p
    simp only [members, removeLink] at hnodup ⊢
    split
    · exact (mem_erase_relation (g := 0) _ hnodup).2
    · exact hnodup
  simp only [removeLink] at hg ⊢
  split at hg
  · cases hg
  · exact hc.inRange g p hg

theorem search_removeLink (c : PoolMgr) (child mother : ℕ) :
    (c.removeLink child mother).search .pool = unlink (c.search .pool) child := by
  funext g
  simp [removeLink, unlink]

/-- **The check from one pool** leaves a way up from it, and all ways up that there were. -/
theorem checkCircle_spec (hc : Keyed c) (i : ℕ) :
    Keyed (c.checkCircle i) ∧ (c.checkCircle i).maxPoolId = c.maxPoolId ∧
      (∃ l, Path ((c.checkCircle i).search .pool) i l) ∧
      ∀ p, (∃ l, Path (c.search .pool) p l) → ∃ l, Path ((c.checkCircle i).search .pool) p l := by
  rw [checkCircle]
  cases hwalk : walk (c.search .pool) (c.maxPoolId + 2) [] i with
  | none =>
    refine ⟨hc, rfl, ?_, fun p hp => hp⟩
    exact walk_none hc.inRange _ [] (Nat.le_refl _) nodup_nil
      (fun x hx => absurd hx not_mem_nil) not_mem_nil hwalk
  | some found =>
    obtain ⟨child, mother⟩ := found
    obtain ⟨hlink, hpath⟩ := walk_some _ [] hwalk
    dsimp only
    rw [search_removeLink]
    exact ⟨keyed_removeLink hc hlink, rfl, hpath, fun p ⟨_, hl⟩ => hl.unlink child⟩

/-- **The checks** leave a way up from every pool that was checked. -/
theorem checkCircles_spec (hc : Keyed c) (pools : List ℕ) : Keyed (pools.foldl checkCircle c) ∧
      (pools.foldl checkCircle c).maxPoolId = c.maxPoolId ∧
      ∀ p, (p ∈ pools ∨ ∃ l, Path (c.search .pool) p l) →
        ∃ l, Path ((pools.foldl checkCircle c).search .pool) p l := by
  induction pools generalizing c with
  | nil => exact ⟨hc, rfl, fun p hp => hp.resolve_left not_mem_nil⟩
  | cons i pools ih =>
    obtain ⟨hkeyed, hmax, hpath, hkept⟩ := checkCircle_spec hc i
    obtain ⟨hrest, hmaxRest, hpaths⟩ := ih hkeyed
    refine ⟨hrest, hmaxRest.trans hmax, fun p hp => hpaths p ?_⟩
    rcases hp with hmem | hold
    · rcases mem_cons.mp hmem with rfl | hmem
      · exact .inr hpath
      · exact .inl hmem
    · exact .inr (hkept p hold)

/-! ### The forest -/

theorem Path.le
    (hrange : ∀ g p, search g = some p → g ≤ max ∧ p ≤ max ∧ g ≠ p) (h : Path search p l) :
    l = [p] ∨ ∀ x ∈ l, x ≤ max := by
  induction h with
  | root => exact .inl rfl
  | @up p m l hup hrest ih =>
    obtain ⟨hp, hm, -⟩ := hrange p m hup
    refine .inr fun x hx => ?_
    rcases mem_cons.mp hx with rfl | hmem
    · exact hp
    rcases ih with hroot | hle
    · rw [hroot, mem_singleton] at hmem
      rw [hmem]
      exact hm
    · exact hle x hmem

theorem Path.length_pos (h : Path search p l) : 0 < l.length := by
  cases h with
  | root => exact Nat.one_pos
  | up => exact Nat.succ_pos _

/-- With a way up from every pool, the pools are a forest, as deep as the ways are long. -/
theorem Keyed.forest (hc : Keyed c) (hpaths : ∀ p, ∃ l, Path (c.search .pool) p l) :
    ∃ depth, Forest c depth := by
  choose path hpath using hpaths
  refine ⟨fun p => (path p).length - 1, hc.keyed, hc.nodup, fun g p hup => ?_, fun p => ?_⟩
  · have hlength := (hpath p).length_pos
    rw [(hpath g).unique (.up hup (hpath p)), length_cons]
    omega
  rcases (hpath p).le hc.inRange with hroot | hle
  · rw [hroot]
    exact Nat.zero_le _
  have hlength := length_le_of_nodup (hpath p).nodup hle
  omega

/-- A table that names no member twice. -/
def Unique (rows : List Row) : Prop := (rows.map Row.guid).Nodup

instance : Decidable (Unique rows) := inferInstanceAs (Decidable (rows.map Row.guid).Nodup)

/-- **Loading** makes a forest of tables that name no member twice. -/
theorem exists_forest (maxPoolId : ℕ) (limit : ℕ → ℕ) {creatures gameobjects pools : List Row}
    (hcreatures : Unique creatures) (hgameobjects : Unique gameobjects) (hpools : Unique pools) :
    ∃ depth, Forest (.loadFromDB maxPoolId limit creatures gameobjects pools) depth := by
  have hempty : Keyed (.templates maxPoolId limit) := {
    keyed := fun _ _ _ => by simp [members, templates, PoolGroup.members]
    nodup := fun _ _ => nodup_nil
    inRange := fun _ _ h => by cases h }
  obtain ⟨hc1, hmax1, hsearch1⟩ := keyed_table hcreatures hempty fun _ _ => rfl
  obtain ⟨hc2, hmax2, hsearch2⟩ := keyed_table hgameobjects hc1 fun row _ => by
    rw [hsearch1 .gameobject (by decide : Kind.gameobject ≠ .creature)]
    rfl
  obtain ⟨hc3, hmax3, -⟩ := keyed_table hpools hc2 fun row _ => by
    rw [hsearch2 .pool (by decide : Kind.pool ≠ .gameobject),
      hsearch1 .pool (by decide : Kind.pool ≠ .creature)]
    rfl
  obtain ⟨hc, hmax, hpaths⟩ := checkCircles_spec hc3 (List.range maxPoolId)
  rw [hmax3, hmax2, hmax1] at hmax
  refine hc.forest fun p => ?_
  have hbelow : ∀ q, q < maxPoolId → ∃ l, Path _ q l := fun q hq =>
    hpaths q (.inl (mem_range.mpr hq))
  -- the last pool is not checked, and is not in itself
  by_cases hp : p < maxPoolId
  · exact hbelow p hp
  cases hup : search _ .pool p with
  | none => exact ⟨_, .root hup⟩
  | some m =>
    obtain ⟨hple, hmle, hne⟩ := hc.inRange p m hup
    rw [hmax] at hple hmle
    change p ≤ maxPoolId at hple
    change m ≤ maxPoolId at hmle
    obtain ⟨l, hl⟩ := hbelow m (by omega)
    exact ⟨_, .up hup hl⟩

/-! ### The recursion comes to an end -/

/-- Pools that are in pools are deeper than these. -/
structure Layered (c : PoolMgr) (depth : ℕ → ℕ) : Prop where
  below : ∀ g p, g ∈ c.members .pool p → depth p < depth g
  depth_le : ∀ p, depth p ≤ c.maxPoolId

section

variable {depth : ℕ → ℕ} {draws : ℕ → Draw}
  {spawn1 spawn1' despawn1 despawn1' : ℕ → ActivePoolData → ActivePoolData}

theorem despawnObject_congr (h : ∀ g ∈ c.members kind p, despawn1 g = despawn1' g) (guid : ℕ) :
    c.despawnObject despawn1 kind p guid = c.despawnObject despawn1' kind p guid := by
  funext s
  refine foldl_ext _ _ _ fun s g hg => ?_
  rw [h g hg]

theorem spawnLoop_congr (hspawn : ∀ g ∈ c.members kind p, spawn1 g = spawn1' g)
    (hdespawn : ∀ g ∈ c.members kind p, despawn1 g = despawn1' g)
    (n triggerFrom lastDespawned : ℕ) (s : ActivePoolData) :
    c.spawnLoop draws spawn1 despawn1 kind p n triggerFrom lastDespawned s =
      c.spawnLoop draws spawn1' despawn1' kind p n triggerFrom lastDespawned s := by
  induction n generalizing triggerFrom lastDespawned s with
  | zero => rfl
  | succ n ih =>
    have hroll := (rollOne_spec c draws kind p triggerFrom s).2
    simp only [spawnLoop]
    rcases hrolled : c.rollOne draws kind p triggerFrom s with ⟨_ | g, t⟩
    · exact ih triggerFrom lastDespawned t
    rw [hrolled] at hroll
    simp only [hspawn g (hroll g rfl).1, despawnObject_congr hdespawn, ih]

theorem spawnMembers_congr (hspawn : kind = .pool → ∀ g ∈ c.members kind p, spawn1 g = spawn1' g)
    (hdespawn : kind = .pool → ∀ g ∈ c.members kind p, despawn1 g = despawn1' g)
    (triggerFrom : ℕ) (s : ActivePoolData) :
    c.spawnMembers draws spawn1 despawn1 p triggerFrom s kind =
      c.spawnMembers draws spawn1' despawn1' p triggerFrom s kind := by
  simp only [spawnMembers, spawnObject]
  refine if_congr Iff.rfl rfl (spawnLoop_congr (fun g hg => ?_) (fun g hg => ?_) _ _ _ _)
  · funext s
    exact ite_congr rfl (fun hkind => by rw [hspawn hkind g hg]) fun _ => rfl
  funext s
  exact ite_congr rfl (fun hkind => by rw [hdespawn hkind g hg]) fun _ => rfl

/-- **`DespawnPool`** does the same at every depth that is deep enough. -/
theorem despawnPool_deep (hc : Layered c depth) {m n : ℕ} (hm : c.maxPoolId < m + depth p)
    (hn : c.maxPoolId < n + depth p) : c.despawnPool m p = c.despawnPool n p := by
  induction m generalizing n p with
  | zero =>
    have hdepth := hc.depth_le p
    omega
  | succ m ih =>
    cases n with
    | zero =>
      have hdepth := hc.depth_le p
      omega
    | succ n =>
      funext s
      simp only [despawnPool]
      refine foldl_ext _ _ _ fun s kind _ => if_congr Iff.rfl rfl ?_
      refine congrFun (despawnObject_congr (fun g hg => ?_) 0) s
      funext s
      refine ite_congr rfl (fun hkind => ?_) fun _ => rfl
      subst hkind
      have hdepth := hc.below g p hg
      rw [ih (by omega) (by omega : c.maxPoolId < n + depth g)]

/-- **`SpawnPool`** does the same at every depth that is deep enough. -/
theorem spawnPool_deep (hc : Layered c depth) {m n : ℕ} (hm : c.maxPoolId < m + depth p)
    (hn : c.maxPoolId < n + depth p) : c.spawnPool draws m p = c.spawnPool draws n p := by
  induction m generalizing n p with
  | zero =>
    have hdepth := hc.depth_le p
    omega
  | succ m ih =>
    cases n with
    | zero =>
      have hdepth := hc.depth_le p
      omega
    | succ n =>
      funext s
      simp only [spawnPool]
      refine foldl_ext _ _ _ fun s kind _ => spawnMembers_congr (fun hkind g hg => ?_)
        (fun hkind g hg => ?_) 0 s
      · subst hkind
        have hdepth := hc.below g p hg
        exact ih (by omega) (by omega)
      subst hkind
      have hdepth := hc.below g p hg
      exact despawnPool_deep hc (by omega) (by omega)

end

/-! ### The counters -/

/-- **The counters of the pools.**  Whatever tables are loaded that name no member twice and
whatever is then spawned, despawned and updated: every counter is the number of spawned
members and within its limit. -/
theorem pools_right (maxPoolId : ℕ) (limit : ℕ → ℕ) {creatures gameobjects pools : List Row}
    (hcreatures : Unique creatures) (hgameobjects : Unique gameobjects) (hpools : Unique pools)
    (draws : ℕ → Draw) (rs : List Request) :
    let c := loadFromDB maxPoolId limit creatures gameobjects pools
    Lib.Along (step c draws) (fun s r => CountersRight c (step c draws s r)) .empty rs := by
  intro c
  obtain ⟨depth, hc⟩ := exists_forest maxPoolId limit hcreatures hgameobjects hpools
  have hstep (s : ActivePoolData) (r : Request) (hs : CountersRight c s) (_ : True) :
      CountersRight c (step c draws s r) := step_right hc draws hs r
  exact Lib.Along.of_invariant hstep hstep (right_empty c) Lib.along_true

/-- A pool of two creatures in a pool of two pools: the outer pool is spawned, and a creature
of the inner one respawns. -/
theorem pools_right_nested :
    let c := loadFromDB 3 (fun _ => 1) [⟨11, 2, false⟩, ⟨12, 2, true⟩, ⟨13, 3, false⟩]
      [⟨11, 3, false⟩] [⟨2, 1, false⟩, ⟨3, 1, false⟩]
    let draws : ℕ → Draw := fun n => ⟨fun _ => n % 2 == 0, n⟩
    Lib.Along (step c draws) (fun s r => CountersRight c (step c draws s r)) .empty
      [.spawnPool 1, .update .creature 12, .despawnPool 1] :=
  pools_right 3 _ (by decide) (by decide) (by decide) _ _

/-- A creature in two pools: the search map knows only the first, which is spawned, and the
creature is a spawned member of both. -/
theorem creature_in_two_pools :
    let c := loadFromDB 2 (fun _ => 1) [⟨1, 1, false⟩, ⟨1, 2, false⟩] [] []
    let s := step c (fun _ => ⟨fun _ => false, 0⟩) .empty (.spawnPool 1)
    s.getActiveObjectCount 2 = 0 ∧ activeMembers c s 2 = 1 ∧ ¬ CountersRight c s :=
  ⟨by decide, by decide, fun h => absurd (h.1 2) (by decide)⟩

end ZerosCore.Pools
