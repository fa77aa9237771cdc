/-
# The counters of the pools

`mSpawnedPools` counts the spawned members of each pool, and says of a pool in a pool that it
is spawned at all.  The three kinds of members are marked in three maps and counted in one,
pools are spawned and despawned with all that is in them, and in a respawn the new member is
counted before the old one is taken out, so that a counter may stand one above its limit
while the pools in the new member are spawned.

If each member is in one pool, and pools are in pools as in a forest, every request keeps
every counter the number of spawned members and within its limit (`step_right`).
-/

import ZerosCore.Pools.PoolMgr
import ZerosCore.Lib.Run

namespace ZerosCore.Pools

open Lib List Option ActivePoolData PoolMgr

/-! ### What the counters should say -/

/-- The number of spawned members of a kind of a pool. -/
def activeOf (c : PoolMgr) (s : ActivePoolData) (kind : Kind) (p : ℕ) : ℕ :=
  (c.members kind p).countP (s.isActiveObject kind)

def activeMembers (c : PoolMgr) (s : ActivePoolData) (p : ℕ) : ℕ :=
  activeOf c s .creature p + activeOf c s .gameobject p + activeOf c s .pool p

/-- Every counter is the number of spawned members. -/
def Good (c : PoolMgr) (s : ActivePoolData) : Prop :=
  ∀ p, s.getActiveObjectCount p = activeMembers c s p

/-- The counters are right and within their limits. -/
def CountersRight (c : PoolMgr) (s : ActivePoolData) : Prop :=
  Good c s ∧ ∀ p, s.getActiveObjectCount p ≤ c.limit p

/-- The members of pools form a forest: each is in one pool, once, and a pool is one deeper
than the pool it is in. -/
structure Forest (c : PoolMgr) (depth : ℕ → ℕ) : Prop where
  keyed : ∀ kind g p, g ∈ c.members kind p ↔ c.search kind g = some p
  nodup : ∀ kind p, (c.members kind p).Nodup
  below : ∀ g p, c.search .pool g = some p → depth g = depth p + 1
  depth_le : ∀ p, depth p ≤ c.maxPoolId

variable {c : PoolMgr} {draws : ℕ → Draw} {depth : ℕ → ℕ} {s t u : ActivePoolData}
  {kind : Kind} {p q g : ℕ}

/-! ### Marks and counters -/

@[simp] theorem isActive_setCount (s : ActivePoolData) (p : ℕ) (f : ℕ → ℕ) (kind : Kind) (g : ℕ) :
    (s.setCount p f).isActiveObject kind g =
      (s.isActiveObject kind g || (kind == .pool && g == p)) := by
  cases kind with
  | creature | gameobject => simp [isActiveObject, setCount]
  | pool =>
    by_cases hg : g = p <;> simp [isActiveObject, setCount, hg]

@[simp] theorem isActive_mark (s : ActivePoolData) (kind kind' : Kind) (g x : ℕ) (on : Bool) :
    (s.mark kind g on).isActiveObject kind' x =
      if kind' = kind ∧ x = g then on else s.isActiveObject kind' x := by
  by_cases hk : kind' = kind
  · subst hk
    by_cases hx : x = g
    · subst hx
      rw [if_pos ⟨rfl, rfl⟩]
      cases kind' <;> cases on <;> simp [isActiveObject, mark]
    rw [if_neg fun h => hx h.2]
    cases kind' <;> simp [isActiveObject, mark, hx]
  rw [if_neg fun h => hk h.1]
  cases kind <;> cases kind' <;> first | exact absurd rfl hk | rfl

theorem count_setCount (s : ActivePoolData) (p : ℕ) (f : ℕ → ℕ) (q : ℕ) :
    (s.setCount p f).getActiveObjectCount q =
      if q = p then f (s.getActiveObjectCount p) else s.getActiveObjectCount q := by
  by_cases hq : q = p <;> simp [getActiveObjectCount, setCount, hq]

theorem count_mark (s : ActivePoolData) (kind : Kind) (g : ℕ) (on : Bool) (q : ℕ)
    (h : kind = .pool → s.getActiveObjectCount g = 0) :
    (s.mark kind g on).getActiveObjectCount q = s.getActiveObjectCount q := by
  cases kind with
  | creature => rfl
  | gameobject => rfl
  | pool =>
    have hzero := h rfl
    by_cases hq : q = g
    · rw [hq, hzero]
      cases on <;> simp [getActiveObjectCount, mark]
    · simp [getActiveObjectCount, mark, hq]

/-- A pool is there to be counted in: it is in no other, or spawned. -/
def Ready (c : PoolMgr) (s : ActivePoolData) (p : ℕ) : Prop :=
  c.search .pool p = none ∨ s.isActiveObject .pool p = true

theorem countP_update {l : List ℕ} {f f' : ℕ → Bool} (hl : l.Nodup) (on : Bool)
    (hf : f g = !on) (hf' : ∀ x ∈ l, f' x = if x = g then on else f x) :
    l.countP f' + (if g ∈ l ∧ on = false then 1 else 0) =
      l.countP f + if g ∈ l ∧ on = true then 1 else 0 := by
  induction l with
  | nil => simp
  | cons x l ih =>
    rw [nodup_cons] at hl
    have hrest := ih hl.2 fun y hy => hf' y (mem_cons_of_mem x hy)
    have hx := hf' x mem_cons_self
    rw [countP_cons, countP_cons]
    by_cases hg : x = g
    · subst hg
      rw [if_pos rfl] at hx
      have hnot : x ∉ l := hl.1
      simp only [hnot, false_and, if_false, Nat.add_zero] at hrest
      rw [hrest, hx, hf]
      cases on <;> simp
    rw [if_neg hg] at hx
    have hmem : g ∈ x :: l ↔ g ∈ l := by
      rw [mem_cons]
      exact ⟨fun h => h.resolve_left fun heq => hg heq.symm, .inr⟩
    simp only [hx, hmem]
    omega

section

variable (hc : Forest c depth)

include hc

theorem Forest.mem_unique (hp : g ∈ c.members kind p) (hq : g ∈ c.members kind q) : p = q := by
  have hsearch := (hc.keyed kind g p).mp hp
  rw [(hc.keyed kind g q).mp hq] at hsearch
  exact (some.inj hsearch).symm

theorem Forest.depth_member (hg : g ∈ c.members .pool p) : depth g = depth p + 1 :=
  hc.below g p ((hc.keyed .pool g p).mp hg)

theorem activeOf_change (hg : g ∈ c.members kind p) (on : Bool)
    (hready : Ready c s p) (hold : s.isActiveObject kind g = !on) (f : ℕ → ℕ) (kind' : Kind)
    (q : ℕ) : activeOf c ((s.mark kind g on).setCount p f) kind' q +
        (if kind' = kind ∧ q = p ∧ on = false then 1 else 0) =
      activeOf c s kind' q + if kind' = kind ∧ q = p ∧ on = true then 1 else 0 := by
  have hactive (x : ℕ) (hx : x ∈ c.members kind' q) :
      ((s.mark kind g on).setCount p f).isActiveObject kind' x =
        if kind' = kind ∧ x = g then on else s.isActiveObject kind' x := by
    rw [isActive_setCount, isActive_mark]
    by_cases hpool : kind' = .pool ∧ x = p
    · -- the pool that counts is spawned, since it is in another one, and it is not the member
      obtain ⟨rfl, rfl⟩ := hpool
      have hspawned : s.isActiveObject .pool x = true := by
        rcases hready with hroot | hspawned
        · rw [(hc.keyed .pool x q).mp hx] at hroot
          cases hroot
        · exact hspawned
      have hne : ¬(Kind.pool = kind ∧ x = g) := by
        rintro ⟨rfl, rfl⟩
        have hdepth := hc.depth_member hg
        omega
      rw [if_neg hne, hspawned]
      rfl
    have hfalse : (kind' == .pool && x == p) = false := by
      rw [Bool.and_eq_false_iff, beq_eq_false_iff_ne, beq_eq_false_iff_ne]
      by_cases hk : kind' = .pool
      · exact .inr fun hx => hpool ⟨hk, hx⟩
      · exact .inl hk
    rw [hfalse, Bool.or_false]
  by_cases hk : kind' = kind
  · subst hk
    have hmem : g ∈ c.members kind' q ↔ q = p := by
      constructor
      · intro hq
        exact hc.mem_unique hq hg
      rintro rfl
      exact hg
    have hcount := countP_update (hc.nodup kind' q) on hold fun x hx =>
      (hactive x hx).trans (by simp)
    simp only [hmem] at hcount
    simpa [activeOf] using hcount
  have hsame : activeOf c ((s.mark kind g on).setCount p f) kind' q = activeOf c s kind' q := by
    refine countP_congr fun x hx => ?_
    rw [hactive x hx, if_neg fun h => hk h.1]
  rw [hsame, if_neg fun h => hk h.1, if_neg fun h => hk h.1]

/-- **A member is marked and counted**: the counters are right again. -/
theorem good_change (hs : Good c s) (hg : g ∈ c.members kind p) (on : Bool)
    (hready : Ready c s p) (hold : s.isActiveObject kind g = !on)
    (hempty : kind = .pool → s.getActiveObjectCount g = 0) (f : ℕ → ℕ)
    (hf : f (s.getActiveObjectCount p) + (if on = false then 1 else 0) =
      s.getActiveObjectCount p + if on = true then 1 else 0) :
    Good c ((s.mark kind g on).setCount p f) := by
  intro q
  have hcreature := activeOf_change hc hg on hready hold f .creature q
  have hgameobject := activeOf_change hc hg on hready hold f .gameobject q
  have hpool := activeOf_change hc hg on hready hold f .pool q
  have hq := hs q
  rw [count_setCount, count_mark s kind g on p hempty, count_mark s kind g on q hempty]
  unfold activeMembers at hq ⊢
  by_cases hqp : q = p
  · subst hqp
    rw [if_pos rfl]
    cases kind <;> cases on <;>
      simp only [reduceCtorEq, false_and, true_and, if_true, if_false, Nat.add_zero]
        at hcreature hgameobject hpool hf <;>
      omega
  rw [if_neg hqp]
  simp only [hqp, false_and, and_false, if_false, Nat.add_zero] at hcreature hgameobject hpool
  omega

end

theorem count_activate (s : ActivePoolData) (kind : Kind) (g p q : ℕ)
    (h : kind = .pool → s.getActiveObjectCount g = 0) :
    (s.activateObject kind g p).getActiveObjectCount q =
      if q = p then s.getActiveObjectCount p + 1 else s.getActiveObjectCount q := by
  rw [activateObject, count_setCount, count_mark s kind g true p h, count_mark s kind g true q h]

theorem count_of_inactive (h : s.isActiveObject .pool g = false) : s.getActiveObjectCount g = 0 := by
  rw [isActiveObject, isSome_eq_false_iff, isNone_iff_eq_none] at h
  rw [getActiveObjectCount, h]
  rfl

theorem count_eq_of_pools (h : t.spawnedPools q = s.spawnedPools q) :
    t.getActiveObjectCount q = s.getActiveObjectCount q := by
  rw [getActiveObjectCount, h]
  rfl

theorem ready_of_active (hs : Good c s) (hg : g ∈ c.members kind p)
    (h : s.isActiveObject kind g = true) :
    0 < s.getActiveObjectCount p ∧ s.isActiveObject .pool p = true := by
  have hpos : 0 < activeOf c s kind p := countP_pos_iff.mpr ⟨g, hg, h⟩
  have hcount : 0 < s.getActiveObjectCount p := by
    rw [hs p]
    unfold activeMembers
    cases kind <;> omega
  refine ⟨hcount, ?_⟩
  by_contra hinactive
  rw [Bool.not_eq_true] at hinactive
  rw [count_of_inactive hinactive] at hcount
  exact absurd hcount (Nat.lt_irrefl 0)

/-! ### Despawning -/

/-- What the despawning of a pool leaves: the counters are right, nothing is spawned that was
not, and the pools that are less deep are as they were. -/
structure Down (c : PoolMgr) (d : ℕ) (depth : ℕ → ℕ) (s t : ActivePoolData) : Prop where
  good : Good c t
  mono : ∀ kind g p, g ∈ c.members kind p → t.isActiveObject kind g = true →
    s.isActiveObject kind g = true
  frame : ∀ q, depth q < d → t.spawnedPools q = s.spawnedPools q

theorem Down.refl (h : Good c s) (d : ℕ) : Down c d depth s s :=
  ⟨h, fun _ _ _ _ h => h, fun _ _ => rfl⟩

variable {d : ℕ}

theorem Down.trans (h : Down c d depth s t) (h' : Down c d depth t u) : Down c d depth s u :=
  ⟨h'.good, fun kind g p hg hu => h.mono kind g p hg (h'.mono kind g p hg hu), fun q hq =>
    (h'.frame q hq).trans (h.frame q hq)⟩

theorem Down.weaken {d' : ℕ} (h : Down c d depth s t) (hd : d' ≤ d) : Down c d' depth s t :=
  ⟨h.good, h.mono, fun q hq => h.frame q (Nat.lt_of_lt_of_le hq hd)⟩

/-- **A member is taken out** of its pool. -/
theorem removeObject_spec (hc : Forest c depth) (hs : Good c s) (hg : g ∈ c.members kind p)
    (hactive : s.isActiveObject kind g = true)
    (hempty : kind = .pool → s.getActiveObjectCount g = 0) :
    Down c (depth p) depth s (s.removeObject kind g p) ∧
      (s.removeObject kind g p).isActiveObject kind g = false ∧
      (s.removeObject kind g p).isActiveObject .pool p = true := by
  obtain ⟨hpos, hspawned⟩ := ready_of_active hs hg hactive
  have hne : kind = .pool → g ≠ p := by
    rintro rfl rfl
    have hdepth := hc.depth_member hg
    omega
  refine ⟨⟨?_, fun kind' x q hx hafter => ?_, fun q hq => ?_⟩, ?_, ?_⟩
  · refine good_change hc hs hg false (.inr hspawned) hactive hempty _ ?_
    simp only [if_true, Bool.false_eq_true, if_false]
    omega
  · rw [removeObject, isActive_setCount, isActive_mark] at hafter
    rcases Bool.or_eq_true_iff.mp hafter with hmark | hpool
    · split at hmark
      · cases hmark
      · exact hmark
    simp only [Bool.and_eq_true, beq_iff_eq] at hpool
    rw [hpool.1, hpool.2]
    exact hspawned
  · have hqp : q ≠ p := by
      rintro rfl
      exact Nat.lt_irrefl _ hq
    have hqg : kind = .pool → q ≠ g := by
      rintro rfl rfl
      have hdepth := hc.depth_member hg
      omega
    rw [removeObject, setCount]
    dsimp only
    rw [if_neg hqp]
    cases kind with
    | creature => rfl
    | gameobject => rfl
    | pool => exact if_neg (hqg rfl)
  · rw [removeObject, isActive_setCount, isActive_mark, if_pos ⟨rfl, rfl⟩,
      Bool.false_or, Bool.and_eq_false_iff, beq_eq_false_iff_ne, beq_eq_false_iff_ne]
    by_cases hk : kind = .pool
    · exact .inr (hne hk)
    · exact .inl hk
  rw [removeObject, isActive_setCount]
  simp

/-- What `Despawn1Object` should do with the members of a pool. -/
def Despawns (c : PoolMgr) (depth : ℕ → ℕ) (kind : Kind) (p : ℕ)
    (despawn1 : ℕ → ActivePoolData → ActivePoolData) : Prop :=
  ∀ g ∈ c.members kind p, ∀ s, Good c s → s.isActiveObject kind g = true →
    Down c (depth p + 1) depth s (despawn1 g s) ∧ (despawn1 g s).isActiveObject kind g = true ∧
      (kind = .pool → (despawn1 g s).getActiveObjectCount g = 0)

variable {despawn1 : ℕ → ActivePoolData → ActivePoolData}

/-- **`DespawnObject`** despawns the members it is asked to. -/
theorem despawnObject_spec (hc : Forest c depth)
    (hdespawn : Despawns c depth kind p despawn1) (guid : ℕ) (hs : Good c s) :
    Down c (depth p) depth s (c.despawnObject despawn1 kind p guid s) ∧
      (∀ g ∈ c.members kind p, guid = 0 ∨ g = guid →
        (c.despawnObject despawn1 kind p guid s).isActiveObject kind g = false) ∧
      (s.isActiveObject .pool p = true →
        (c.despawnObject despawn1 kind p guid s).isActiveObject .pool p = true) := by
  have hloop (l : List ℕ) (hl : ∀ g ∈ l, g ∈ c.members kind p) (s : ActivePoolData)
      (hs : Good c s) :
      let t := l.foldl (fun s g => if s.isActiveObject kind g ∧ (guid = 0 ∨ g = guid) then
        (despawn1 g s).removeObject kind g p else s) s
      Down c (depth p) depth s t ∧
        (∀ g ∈ l, guid = 0 ∨ g = guid → t.isActiveObject kind g = false) ∧
        (s.isActiveObject .pool p = true → t.isActiveObject .pool p = true) := by
    induction l generalizing s with
    | nil => exact ⟨.refl hs _, nofun, fun h => h⟩
    | cons g l ih =>
      have hg := hl g mem_cons_self
      have hrest := ih fun x hx => hl x (mem_cons_of_mem g hx)
      -- the head is despawned if it has to, and is not spawned again by the rest
      have hhead : let t := if s.isActiveObject kind g ∧ (guid = 0 ∨ g = guid) then
            (despawn1 g s).removeObject kind g p else s
          Down c (depth p) depth s t ∧ (guid = 0 ∨ g = guid → t.isActiveObject kind g = false) ∧
            (s.isActiveObject .pool p = true → t.isActiveObject .pool p = true) := by
        dsimp only
        split
        · rename_i hdo
          obtain ⟨hdown, hstay, hempty⟩ := hdespawn g hg s hs hdo.1
          obtain ⟨hremove, hgone, hpool⟩ := removeObject_spec hc hdown.good hg hstay hempty
          exact ⟨(hdown.weaken (Nat.le_succ _)).trans hremove, fun _ => hgone, fun _ => hpool⟩
        rename_i hdo
        refine ⟨.refl hs _, fun hwanted => ?_, fun h => h⟩
        by_contra hactive
        exact hdo ⟨by simpa using hactive, hwanted⟩
      obtain ⟨hdown, hgone, hpool⟩ := hhead
      obtain ⟨hdown', hgone', hpool'⟩ := hrest _ hdown.good
      refine ⟨hdown.trans hdown', fun x hx hwanted => ?_, fun h => hpool' (hpool h)⟩
      rcases mem_cons.mp hx with rfl | hmem
      · by_contra hactive
        have hback := hdown'.mono kind x p hg (by simpa using hactive)
        rw [hgone hwanted] at hback
        cases hback
      · exact hgone' x hmem hwanted
  exact hloop (c.members kind p) (fun _ hg => hg) s hs

theorem members_of_isEmpty (h : (c.groups kind p).isEmpty = true) : c.members kind p = [] := by
  simp only [PoolGroup.isEmpty, Bool.and_eq_true, List.isEmpty_iff] at h
  rw [members, PoolGroup.members, h.1, h.2]
  rfl

theorem count_zero (hs : Good c s)
    (h : ∀ kind, ∀ g ∈ c.members kind p, s.isActiveObject kind g = false) :
    s.getActiveObjectCount p = 0 := by
  have hzero (kind : Kind) : activeOf c s kind p = 0 := by
    refine countP_eq_zero.mpr fun g hg hactive => ?_
    rw [h kind g hg] at hactive
    cases hactive
  rw [hs p, activeMembers, hzero, hzero, hzero]

/-- **`DespawnPool`** despawns everything in a pool. -/
theorem despawnPool_spec (hc : Forest c depth) (n : ℕ) (hn : c.maxPoolId < n + depth p)
    (hs : Good c s) : Down c (depth p) depth s (c.despawnPool n p s) ∧
      (∀ kind, ∀ g ∈ c.members kind p, (c.despawnPool n p s).isActiveObject kind g = false) ∧
      (s.isActiveObject .pool p = true → (c.despawnPool n p s).isActiveObject .pool p = true) := by
  induction n generalizing p s with
  | zero =>
    have hle := hc.depth_le p
    omega
  | succ n ih =>
    have hdespawn (kind : Kind) :
        Despawns c depth kind p (forPool kind (c.despawnPool n)) := by
      intro g hg s hs hactive
      rw [forPool]
      split
      · rename_i hk
        subst hk
        have hdepth := hc.depth_member hg
        obtain ⟨hdown, hgone, hstay⟩ := ih (p := g) (s := s) (by omega) hs
        rw [hdepth] at hdown
        exact ⟨hdown, hstay hactive, fun _ => count_zero hdown.good hgone⟩
      rename_i hk
      exact ⟨.refl hs _, hactive, fun heq => absurd heq hk⟩
    have hone (kind : Kind) (s : ActivePoolData) (hs : Good c s) :
        let t := if (c.groups kind p).isEmpty then s
          else c.despawnObject (forPool kind (c.despawnPool n)) kind p 0 s
        Down c (depth p) depth s t ∧ (∀ g ∈ c.members kind p, t.isActiveObject kind g = false) ∧
          (s.isActiveObject .pool p = true → t.isActiveObject .pool p = true) := by
      dsimp only
      split
      · rename_i hempty
        rw [members_of_isEmpty hempty]
        exact ⟨.refl hs _, nofun, fun h => h⟩
      obtain ⟨hdown, hgone, hstay⟩ := despawnObject_spec hc (hdespawn kind) 0 hs
      exact ⟨hdown, fun g hg => hgone g hg (.inl rfl), hstay⟩
    rw [despawnPool]
    simp only [foldl_cons, foldl_nil]
    obtain ⟨hdown1, hgone1, hstay1⟩ := hone .creature s hs
    obtain ⟨hdown2, hgone2, hstay2⟩ := hone .gameobject _ hdown1.good
    obtain ⟨hdown3, hgone3, hstay3⟩ := hone .pool _ hdown2.good
    have hkeep {a b : ActivePoolData} (hdown : Down c (depth p) depth a b) {kind : Kind} {g : ℕ}
        (hg : g ∈ c.members kind p) (hgone : a.isActiveObject kind g = false) :
        b.isActiveObject kind g = false := by
      by_contra hactive
      have hback := hdown.mono kind g p hg (by simpa using hactive)
      rw [hgone] at hback
      cases hback
    refine ⟨(hdown1.trans hdown2).trans hdown3, fun kind g hg => ?_, fun h =>
      hstay3 (hstay2 (hstay1 h))⟩
    cases kind with
    | creature => exact hkeep hdown3 hg (hkeep hdown2 hg (hgone1 g hg))
    | gameobject => exact hkeep hdown3 hg (hgone2 g hg)
    | pool => exact hgone3 g hg

/-! ### Spawning -/

/-- What the spawning of a pool leaves: the counters are right, what was spawned still is, the
pools that are less deep are as they were, and no counter has left its limit. -/
structure Up (c : PoolMgr) (d : ℕ) (depth : ℕ → ℕ) (s t : ActivePoolData) : Prop where
  good : Good c t
  mono : ∀ kind g, s.isActiveObject kind g = true → t.isActiveObject kind g = true
  frame : ∀ q, depth q < d → t.spawnedPools q = s.spawnedPools q
  within : ∀ q, s.getActiveObjectCount q ≤ c.limit q → t.getActiveObjectCount q ≤ c.limit q

/-- What some rounds of `SpawnObject` leave: the same but for the counter of the pool itself,
which grows by one a round at most. -/
structure Grow (c : PoolMgr) (p : ℕ) (depth : ℕ → ℕ) (n : ℕ) (s t : ActivePoolData) : Prop where
  good : Good c t
  mono : ∀ kind g, s.isActiveObject kind g = true → t.isActiveObject kind g = true
  frame : ∀ q, depth q < depth p → t.spawnedPools q = s.spawnedPools q
  within : ∀ q, q ≠ p → s.getActiveObjectCount q ≤ c.limit q → t.getActiveObjectCount q ≤ c.limit q
  count : t.getActiveObjectCount p ≤ s.getActiveObjectCount p + n

theorem Up.refl (h : Good c s) (d : ℕ) : Up c d depth s s :=
  ⟨h, fun _ _ h => h, fun _ _ => rfl, fun _ h => h⟩

theorem Up.trans (h : Up c d depth s t) (h' : Up c d depth t u) : Up c d depth s u :=
  ⟨h'.good, fun kind g hg => h'.mono kind g (h.mono kind g hg), fun q hq =>
    (h'.frame q hq).trans (h.frame q hq), fun q hq => h'.within q (h.within q hq)⟩

variable {n : ℕ}

theorem Grow.trans {m : ℕ} (h : Grow c p depth m s t) (h' : Grow c p depth n t u) :
    Grow c p depth (m + n) s u :=
  ⟨h'.good, fun kind g hg => h'.mono kind g (h.mono kind g hg), fun q hq =>
    (h'.frame q hq).trans (h.frame q hq), fun q hne hq => h'.within q hne (h.within q hne hq), by
      have hst := h.count
      have htu := h'.count
      omega⟩

theorem Grow.refl (h : Good c s) (p n : ℕ) : Grow c p depth n s s :=
  ⟨h, fun _ _ h => h, fun _ _ => rfl, fun _ _ h => h, Nat.le_add_right _ _⟩

theorem Grow.more {m : ℕ} (h : Grow c p depth m s t) (hmn : m ≤ n) : Grow c p depth n s t :=
  { h with count := Nat.le_trans h.count (Nat.add_le_add_left hmn _) }

theorem Grow.ready (h : Grow c p depth n s t) (hp : Ready c s p) : Ready c t p :=
  hp.imp_right (h.mono .pool p)

theorem grow_drawn (h : Good c s) (p d : ℕ) : Grow c p depth 0 s { s with drawn := d } := by
  have hactive (kind : Kind) (g : ℕ) :
      ({ s with drawn := d } : ActivePoolData).isActiveObject kind g = s.isActiveObject kind g := by
    cases kind <;> rfl
  refine ⟨fun q => ?_, fun kind g hg => (hactive kind g).trans hg, fun _ _ => rfl, fun _ _ h => h,
    Nat.le_refl _⟩
  have hq := h q
  unfold activeMembers activeOf at hq ⊢
  have hfun (kind : Kind) :
      ({ s with drawn := d } : ActivePoolData).isActiveObject kind = s.isActiveObject kind :=
    funext (hactive kind)
  rw [hfun, hfun, hfun]
  exact hq

theorem draw_eq (entries : List ℕ) (s : ActivePoolData) :
    ∃ d, draw entries s = { s with drawn := d } := by
  unfold draw
  split
  · exact ⟨s.drawn, rfl⟩
  · exact ⟨s.drawn + 1, rfl⟩

/-- **`RollOne`** answers with the triggering member or one that is not spawned. -/
theorem rollOne_spec (c : PoolMgr) (draws : ℕ → Draw) (kind : Kind) (p triggerFrom : ℕ)
    (s : ActivePoolData) : (∃ d, (c.rollOne draws kind p triggerFrom s).2 = { s with drawn := d }) ∧
      ∀ g, (c.rollOne draws kind p triggerFrom s).1 = some g →
        g ∈ c.members kind p ∧ (g = triggerFrom ∨ s.isActiveObject kind g = false) := by
  obtain ⟨d, hdraw⟩ := draw_eq (c.groups kind p).explicitlyChanced s
  unfold rollOne
  dsimp only
  split
  · rename_i g hroll
    refine ⟨⟨d, hdraw⟩, fun g' hg' => ?_⟩
    cases hg'
    obtain ⟨e, he, rfl⟩ := map_eq_some_iff.mp hroll
    have hfound := find?_some he
    have hmem := mem_of_find?_eq_some he
    simp only [Bool.and_eq_true, Bool.or_eq_true, beq_iff_eq, Bool.not_eq_true'] at hfound
    exact ⟨mem_append_right _ (fst_mem_of_mem_zipIdx hmem), hfound.2⟩
  obtain ⟨d', hdraw'⟩ := draw_eq (c.groups kind p).equalChanced
    (draw (c.groups kind p).explicitlyChanced s)
  refine ⟨⟨d', by rw [hdraw', hdraw]⟩, fun g hg => ?_⟩
  dsimp only at hg
  rw [hdraw, rollEqual] at hg
  dsimp only at hg
  split at hg
  · cases hg
  rename_i x hx
  split at hg
  · rename_i hfree
    cases hg
    refine ⟨mem_append_left _ (mem_of_getElem? hx), hfree.imp_right fun h => ?_⟩
    cases kind <;> exact h
  · cases hg

/-- What `Spawn1Object` should do with a member that was just activated. -/
def Spawns (c : PoolMgr) (depth : ℕ → ℕ) (kind : Kind) (p : ℕ)
    (spawn1 : ℕ → ActivePoolData → ActivePoolData) : Prop :=
  ∀ g ∈ c.members kind p, ∀ s, Good c s → s.isActiveObject kind g = true →
    Up c (depth p + 1) depth s (spawn1 g s)

variable {spawn1 : ℕ → ActivePoolData → ActivePoolData}

/-- **A member is activated and spawned.** -/
theorem activate_spec (hc : Forest c depth)
    (hspawn : Spawns c depth kind p spawn1) (hs : Good c s) (hready : Ready c s p)
    (hg : g ∈ c.members kind p) (hinactive : s.isActiveObject kind g = false) :
    Grow c p depth 1 s (spawn1 g (s.activateObject kind g p)) := by
  have hempty : kind = .pool → s.getActiveObjectCount g = 0 := by
    rintro rfl
    exact count_of_inactive hinactive
  have hgood : Good c (s.activateObject kind g p) :=
    good_change hc hs hg true hready hinactive hempty _ (by simp)
  have hactive (kind' : Kind) (x : ℕ) (hx : s.isActiveObject kind' x = true) :
      (s.activateObject kind g p).isActiveObject kind' x = true := by
    rw [activateObject, isActive_setCount, isActive_mark, hx]
    split <;> rfl
  have hmember : (s.activateObject kind g p).isActiveObject kind g = true := by
    rw [activateObject, isActive_setCount, isActive_mark, if_pos ⟨rfl, rfl⟩]
    rfl
  have hframe (q : ℕ) (hq : depth q < depth p) :
      (s.activateObject kind g p).spawnedPools q = s.spawnedPools q := by
    have hqp : q ≠ p := by
      rintro rfl
      exact Nat.lt_irrefl _ hq
    have hqg : kind = .pool → q ≠ g := by
      rintro rfl rfl
      have hdepth := hc.depth_member hg
      omega
    rw [activateObject, setCount]
    dsimp only
    rw [if_neg hqp]
    cases kind with
    | creature => rfl
    | gameobject => rfl
    | pool => exact if_neg (hqg rfl)
  have hup := hspawn g hg _ hgood hmember
  refine ⟨hup.good, fun kind' x hx => hup.mono kind' x (hactive kind' x hx), fun q hq => ?_,
    fun q hne hq => hup.within q ?_, ?_⟩
  · exact (hup.frame q (by omega)).trans (hframe q hq)
  · rw [count_activate s kind g p q hempty, if_neg hne]
    exact hq
  refine Nat.le_of_eq ?_
  rw [count_eq_of_pools (hup.frame p (Nat.lt_succ_self _)), count_activate s kind g p p hempty,
    if_pos rfl]

/-- **The rounds of `SpawnObject`** without a trigger. -/
theorem spawnLoop_spec (hc : Forest c depth) (draws : ℕ → Draw)
    (hspawn : Spawns c depth kind p spawn1)
    (despawn1 : ℕ → ActivePoolData → ActivePoolData) (n last : ℕ) (hs : Good c s)
    (hready : Ready c s p) :
    Grow c p depth n s (c.spawnLoop draws spawn1 despawn1 kind p n 0 last s) := by
  induction n generalizing last s with
  | zero => exact .refl hs p 0
  | succ n ih =>
    obtain ⟨⟨d, hdrawn⟩, hroll⟩ := rollOne_spec c draws kind p 0 s
    have hdraw : Grow c p depth 0 s { s with drawn := d } := grow_drawn hs p d
    rw [spawnLoop]
    cases hone : c.rollOne draws kind p 0 s with
    | mk answer t =>
      rw [hone] at hdrawn hroll
      dsimp only at hdrawn hroll
      subst hdrawn
      have hskip (last : ℕ) : Grow c p depth (n + 1) s
          (c.spawnLoop draws spawn1 despawn1 kind p n 0 last { s with drawn := d }) :=
        (hdraw.trans (ih last hdraw.good (hdraw.ready hready))).more (by omega)
      cases answer with
      | none => exact hskip last
      | some g =>
        obtain ⟨hg, hfree⟩ := hroll g rfl
        dsimp only
        split
        · exact hskip last
        split
        · exact hskip last
        rename_i hne
        have hinactive : ({ s with drawn := d } : ActivePoolData).isActiveObject kind g =
            false := by
          have hold := hfree.resolve_left hne
          cases kind <;> exact hold
        have hgrow := activate_spec hc hspawn hdraw.good (hdraw.ready hready) hg hinactive
        rw [if_neg (not_not.mpr rfl)]
        have hall := (hdraw.trans hgrow).trans
          (ih last hgrow.good (hgrow.ready (hdraw.ready hready)))
        exact hall.more (by omega)

theorem Down.activeOf_le (h : Down c d depth s t) (kind : Kind) (q : ℕ) :
    activeOf c t kind q ≤ activeOf c s kind q :=
  countP_mono_left fun g hg hactive => h.mono kind g q hg hactive

theorem Down.count_le (h : Down c d depth s t) (hs : Good c s) (q : ℕ) :
    t.getActiveObjectCount q ≤ s.getActiveObjectCount q := by
  have hcreature := h.activeOf_le .creature q
  have hgameobject := h.activeOf_le .gameobject q
  have hpool := h.activeOf_le .pool q
  rw [h.good q, hs q]
  unfold activeMembers
  omega

theorem Down.count_lt (h : Down c d depth s t) (hs : Good c s) (hg : g ∈ c.members kind p)
    (hactive : s.isActiveObject kind g = true) (hgone : t.isActiveObject kind g = false) :
    t.getActiveObjectCount p < s.getActiveObjectCount p := by
  have hlt : activeOf c t kind p < activeOf c s kind p := by
    have hmono : ∀ x ∈ c.members kind p, t.isActiveObject kind x = true →
        s.isActiveObject kind x = true := fun x hx => h.mono kind x p hx
    unfold activeOf
    generalize c.members kind p = l at hg hmono
    induction l with
    | nil => cases hg
    | cons x l ih =>
      have hrest : l.countP (t.isActiveObject kind) ≤ l.countP (s.isActiveObject kind) :=
        countP_mono_left fun y hy => hmono y (mem_cons_of_mem x hy)
      rw [countP_cons, countP_cons]
      rcases mem_cons.mp hg with rfl | hmem
      · rw [hgone, hactive]
        simp only [Bool.false_eq_true, if_false, if_true]
        omega
      have hlt := ih hmem fun y hy => hmono y (mem_cons_of_mem x hy)
      have hx := hmono x mem_cons_self
      split
      · rename_i htrue
        rw [if_pos (hx htrue)]
        omega
      · omega
  have hcreature := h.activeOf_le .creature p
  have hgameobject := h.activeOf_le .gameobject p
  have hpool := h.activeOf_le .pool p
  rw [h.good p, hs p]
  unfold activeMembers
  cases kind <;> omega

/-- What an update keeps: the counters of the other pools are within their limits, and that of
the pool itself has grown by a number at most. -/
structure Update (c : PoolMgr) (p n : ℕ) (s t : ActivePoolData) : Prop where
  good : Good c t
  within : ∀ q, q ≠ p → s.getActiveObjectCount q ≤ c.limit q → t.getActiveObjectCount q ≤ c.limit q
  count : t.getActiveObjectCount p ≤ s.getActiveObjectCount p + n

theorem Grow.update {m : ℕ} (h : Grow c p depth m s t) (hmn : m ≤ n) : Update c p n s t :=
  ⟨h.good, h.within, Nat.le_trans h.count (Nat.add_le_add_left hmn _)⟩

/-- **The rounds of `SpawnObject`** for a member that triggers: it is spawned again or makes
room for another one, so that one round counts for nothing. -/
theorem spawnLoop_trigger (hc : Forest c depth) (draws : ℕ → Draw)
    (hspawn : Spawns c depth kind p spawn1)
    (hdespawn : Despawns c depth kind p despawn1) {trigger : ℕ} (htrigger : trigger ≠ 0)
    (hmember : trigger ∈ c.members kind p) (n last : ℕ) (hs : Good c s) (hready : Ready c s p)
    (hactive : s.isActiveObject kind trigger = true) :
    Update c p (n - 1) s (c.spawnLoop draws spawn1 despawn1 kind p n trigger last s) := by
  induction n generalizing last s with
  | zero =>
    have hrefl : Grow c p depth 0 s s := .refl hs p 0
    exact hrefl.update (Nat.le_refl _)
  | succ n ih =>
    obtain ⟨⟨d, hdrawn⟩, hroll⟩ := rollOne_spec c draws kind p trigger s
    have hdraw : Grow c p depth 0 s { s with drawn := d } := grow_drawn hs p d
    have hactive' := hdraw.mono kind trigger hactive
    have hready' := hdraw.ready hready
    rw [spawnLoop]
    cases hone : c.rollOne draws kind p trigger s with
    | mk answer t =>
      rw [hone] at hdrawn hroll
      dsimp only at hdrawn hroll
      subst hdrawn
      have hskip : Update c p (n + 1 - 1) s
          (c.spawnLoop draws spawn1 despawn1 kind p n trigger last { s with drawn := d }) := by
        have hrest := ih last hdraw.good hready' hactive'
        exact ⟨hrest.good, hrest.within, Nat.le_trans hrest.count (Nat.add_le_add_left (by omega) _)⟩
      cases answer with
      | none => exact hskip
      | some g =>
        obtain ⟨hg, hfree⟩ := hroll g rfl
        dsimp only
        split
        · exact hskip
        split
        · -- the member itself is drawn
          have hrest := spawnLoop_spec hc draws hspawn despawn1 n last hdraw.good hready'
          exact (hdraw.trans hrest).update (by omega)
        rename_i hne
        have hinactive : ({ s with drawn := d } : ActivePoolData).isActiveObject kind g =
            false := by
          have hold := hfree.resolve_left hne
          cases kind <;> exact hold
        have hgrow := activate_spec hc hspawn hdraw.good hready' hg hinactive
        generalize spawn1 g
          (({ s with drawn := d } : ActivePoolData).activateObject kind g p) = v at hgrow ⊢
        obtain ⟨hdown, hgone, hstay⟩ := despawnObject_spec hc hdespawn trigger hgrow.good
        have hlt := hdown.count_lt hgrow.good hmember (hgrow.mono kind trigger hactive')
          (hgone trigger hmember (.inr rfl))
        have hrest := spawnLoop_spec hc draws hspawn despawn1 n trigger hdown.good
          ((hgrow.ready hready').imp_right hstay)
        refine ⟨hrest.good, fun q hne hq => hrest.within q hne ?_, ?_⟩
        · exact Nat.le_trans (hdown.count_le hgrow.good q) (hgrow.within q hne hq)
        have hcount : ({ s with drawn := d } : ActivePoolData).getActiveObjectCount p =
            s.getActiveObjectCount p := rfl
        have hone := hgrow.count
        have hmore := hrest.count
        omega

theorem spawnCount_le (trigger : ℕ) (h : s.getActiveObjectCount p ≤ c.limit p) :
    s.getActiveObjectCount p + c.spawnCount p trigger s ≤
      c.limit p + if trigger ≠ 0 then 1 else 0 := by
  have hbmod : ((c.limit p : ℤ) - s.getActiveObjectCount p).bmod (2 ^ 32) ≤
      (c.limit p : ℤ) - s.getActiveObjectCount p := by
    have hle : ((c.limit p : ℤ) - s.getActiveObjectCount p) % (2 ^ 32 : ℕ) ≤
        (c.limit p : ℤ) - s.getActiveObjectCount p := by omega
    rw [Int.bmod_def]
    split <;> omega
  unfold spawnCount
  split <;> omega

section

variable (hc : Forest c depth)

include hc

/-- **Spawning without a trigger** keeps the counters within their limits. -/
theorem spawnMembers_spec (draws : ℕ → Draw)
    (hspawn : ∀ kind, Spawns c depth kind p (forPool kind spawn1))
    (despawn1 : ℕ → ActivePoolData → ActivePoolData) (kind : Kind) (hs : Good c s)
    (hready : Ready c s p) :
    Up c (depth p) depth s (c.spawnMembers draws spawn1 despawn1 p 0 s kind) := by
  unfold spawnMembers
  split
  · exact .refl hs _
  have hgrow := spawnLoop_spec hc draws (hspawn kind) (forPool kind despawn1)
    (c.spawnCount p 0 s) 0 hs hready
  refine { hgrow with within := fun q hq => ?_ }
  by_cases hqp : q = p
  · subst hqp
    have hcount := spawnCount_le 0 hq
    rw [if_neg (not_not.mpr rfl)] at hcount
    exact Nat.le_trans hgrow.count hcount
  · exact hgrow.within q hqp hq

theorem spawnPool_spec (draws : ℕ → Draw) (n : ℕ) (hs : Good c s)
    (hready : Ready c s p) : Up c (depth p) depth s (c.spawnPool draws n p s) := by
  induction n generalizing p s with
  | zero => exact .refl hs _
  | succ n ih =>
    have hspawn (kind : Kind) :
        Spawns c depth kind p (forPool kind (c.spawnPool draws n)) := by
      intro g hg s hs hactive
      rw [forPool]
      split
      · rename_i hk
        subst hk
        have hup := ih hs (.inr hactive)
        rw [hc.depth_member hg] at hup
        exact hup
      · exact .refl hs _
    rw [spawnPool]
    simp only [foldl_cons, foldl_nil]
    have h1 := spawnMembers_spec hc draws hspawn (c.despawnPool n) .pool hs hready
    have hready1 := hready.imp_right (h1.mono .pool p)
    have h2 := spawnMembers_spec hc draws hspawn (c.despawnPool n) .gameobject h1.good hready1
    have hready2 := hready1.imp_right (h2.mono .pool p)
    have h3 := spawnMembers_spec hc draws hspawn (c.despawnPool n) .creature h2.good hready2
    exact (h1.trans h2).trans h3

/-- **An update** keeps the counters right. -/
theorem update_right (draws : ℕ → Draw) (h : CountersRight c s)
    (hg : g ∈ c.members kind p) (hactive : s.isActiveObject kind g = true) :
    CountersRight c (c.spawnMembers draws (c.spawnPool draws c.deep) (c.despawnPool c.deep) p g s
      kind) := by
  have hready : Ready c s p := .inr (ready_of_active h.1 hg hactive).2
  have hspawn (kind : Kind) :
      Spawns c depth kind p (forPool kind (c.spawnPool draws c.deep)) := by
    intro g hg s hs hactive
    rw [forPool]
    split
    · rename_i hk
      subst hk
      have hup := spawnPool_spec hc draws c.deep hs (.inr hactive)
      rw [hc.depth_member hg] at hup
      exact hup
    · exact .refl hs _
  have hdespawn : Despawns c depth kind p (forPool kind (c.despawnPool c.deep)) := by
    intro g hg s hs hactive
    rw [forPool]
    split
    · rename_i hk
      subst hk
      obtain ⟨hdown, hgone, hstay⟩ := despawnPool_spec (p := g) hc c.deep
        (Nat.lt_of_lt_of_le (Nat.lt_succ_self _) (Nat.le_add_right _ _)) hs
      rw [hc.depth_member hg] at hdown
      exact ⟨hdown, hstay hactive, fun _ => count_zero hdown.good hgone⟩
    rename_i hk
    exact ⟨.refl hs _, hactive, fun heq => absurd heq hk⟩
  by_cases hzero : g = 0
  · subst hzero
    have hup := spawnMembers_spec hc draws hspawn (c.despawnPool c.deep) kind h.1 hready
    exact ⟨hup.good, fun q => hup.within q (h.2 q)⟩
  unfold spawnMembers
  split
  · exact h
  have hupdate := spawnLoop_trigger hc draws (hspawn kind) hdespawn hzero hg
    (c.spawnCount p g s) 0 h.1 hready hactive
  refine ⟨hupdate.good, fun q => ?_⟩
  by_cases hqp : q = p
  · subst hqp
    have hcount := spawnCount_le g (h.2 q)
    rw [if_pos hzero] at hcount
    have hgrown := hupdate.count
    have hlimit := h.2 q
    exact Nat.le_trans hgrown (by omega)
  · exact hupdate.within q hqp (h.2 q)

/-- **One request** keeps the counters right. -/
theorem step_right (draws : ℕ → Draw) (h : CountersRight c s)
    (r : Request) : CountersRight c (step c draws s r) := by
  cases r with
  | spawnPool p =>
    simp only [step]
    split
    · rename_i hroot
      have hup := spawnPool_spec hc draws c.deep h.1 (.inl hroot.2)
      exact ⟨hup.good, fun q => hup.within q (h.2 q)⟩
    · exact h
  | despawnPool p =>
    simp only [step]
    split
    · obtain ⟨hdown, -, -⟩ := despawnPool_spec (p := p) hc c.deep
        (Nat.lt_of_lt_of_le (Nat.lt_succ_self _) (Nat.le_add_right _ _)) h.1
      exact ⟨hdown.good, fun q => Nat.le_trans (hdown.count_le h.1 q) (h.2 q)⟩
    · exact h
  | update kind g =>
    simp only [step]
    split
    · rename_i hmember
      obtain ⟨hpos, hactive⟩ := hmember
      cases hsearch : c.search kind g with
      | none =>
        rw [hsearch] at hpos
        exact absurd rfl hpos
      | some p =>
        have hg := (hc.keyed kind g p).mpr hsearch
        rw [getD_some]
        unfold updatePool
        dsimp only
        split
        · rename_i hmother
          cases hup : c.search .pool p with
          | none =>
            rw [hup] at hmother
            exact absurd rfl hmother
          | some mother =>
            exact update_right hc draws h ((hc.keyed .pool p mother).mpr hup)
              (ready_of_active h.1 hg hactive).2
        · exact update_right hc draws h hg hactive
    · exact h

end

theorem right_empty (c : PoolMgr) : CountersRight c .empty := by
  have hzero (kind : Kind) (p : ℕ) : activeOf c .empty kind p = 0 :=
    countP_eq_zero.mpr fun g _ hactive => by cases kind <;> cases hactive
  refine ⟨fun p => ?_, fun p => Nat.zero_le _⟩
  rw [activeMembers, hzero, hzero, hzero]
  rfl

end ZerosCore.Pools
