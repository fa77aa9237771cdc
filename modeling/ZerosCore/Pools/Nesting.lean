/-
# Circles that the check of the pools leaves

A row of `pool_pool` adds its pool to the group of the mother pool, but to the search map
only if the pool has no mother there yet, so that of a pool with several mothers the search
map knows the first.  The check of `PoolMgr::LoadFromDB` walks along the search map, and what
it removes, it removes once: a circle through a second mother is not seen, and of two rows
for the same link one is left.

The walks are those over the first mothers, whatever links are removed on the way
(`walk_checked`): of each circle of first mothers one link is removed, the one at which the
walk from the first pool that leads into the circle closes it (`Closed`).  So no circle is
left exactly if each circle of the rows has such a link, and no two rows put it in the same
list (`nesting_right_iff`).
-/

import ZerosCore.Pools.Circles
import Mathlib.Data.Finset.Card

namespace ZerosCore.Pools

open Relation List Option PoolMgr ReflTransGen

/-- No pool leads back to itself. -/
def NoCircle (inside : ℕ → ℕ → Prop) : Prop := ∀ p, ¬ TransGen inside p p

/-- The pools in pools have no circle, and the recursion into them ends: it does the same at
every depth that is deep enough. -/
def NestingRight (c : PoolMgr) : Prop :=
  NoCircle (fun child mother => child ∈ c.members .pool mother) ∧
    ∀ (draws : ℕ → Draw) (p m n : ℕ), c.deep ≤ m → c.deep ≤ n →
      c.spawnPool draws m p = c.spawnPool draws n p ∧ c.despawnPool m p = c.despawnPool n p

/-! ### What the rows say -/

/-- The rows of `pool_pool` that are not skipped. -/
def loadedRows (maxPoolId : ℕ) (rows : List Row) : List Row :=
  rows.filter fun row =>
    decide (row.poolId ≤ maxPoolId ∧ row.guid ≤ maxPoolId ∧ row.poolId ≠ row.guid)

def firstMother (maxPoolId : ℕ) (rows : List Row) (child : ℕ) : Option ℕ :=
  ((loadedRows maxPoolId rows).find? fun row => row.guid == child).map Row.poolId

/-- One pool leads to another by the pools it is in. -/
def LeadsTo (search : ℕ → Option ℕ) : ℕ → ℕ → Prop :=
  ReflTransGen fun p mother => search p = some mother

/-- The link from a pool to its first mother closes a circle, as it is seen from one of the
first pools: the walk from the first pool that leads into the circle ends with it. -/
def Closed (maxPoolId : ℕ) (search : ℕ → Option ℕ) (n child mother : ℕ) : Prop :=
  ∃ i < n, PoolMgr.walk search (maxPoolId + 2) [] i = some (child, mother) ∧
    ∀ j < i, ¬ LeadsTo search j mother

/-- How many rows put a pool in a list of the group of another. -/
def timesNamed (maxPoolId : ℕ) (limit : ℕ → ℕ) (rows : List Row) (explicit : Bool)
    (child mother : ℕ) : ℕ :=
  (loadedRows maxPoolId rows).countP fun row =>
    row.guid == child && row.poolId == mother &&
      (decide (row.chanced ∧ limit mother = 1) == explicit)

/-- A link of the rows is not removed: it is not one that closes a circle of first mothers, or
two rows put it in the same list. -/
def Stays (maxPoolId : ℕ) (limit : ℕ → ℕ) (rows : List Row) (child mother : ℕ) : Prop :=
  ∃ explicit, 0 < timesNamed maxPoolId limit rows explicit child mother ∧
    (Closed maxPoolId (firstMother maxPoolId rows) maxPoolId child mother →
      1 < timesNamed maxPoolId limit rows explicit child mother)

variable {c : PoolMgr} {kind : Kind} {n i p q g child mother maxPoolId : ℕ} {rows : List Row}
  {limit : ℕ → ℕ} {search other : ℕ → Option ℕ} {checked : List ℕ}

/-! ### Circles of first mothers -/

theorem LeadsTo.next (h : LeadsTo search p q) (hp : search p = some mother) (hne : p ≠ q) :
    LeadsTo search mother q := by
  rcases cases_head h with heq | ⟨m, hm, hrest⟩
  · exact absurd heq hne
  rw [hp] at hm
  rw [some.inj hm]
  exact hrest

def OnCircle (search : ℕ → Option ℕ) (p : ℕ) : Prop :=
  ∃ mother, search p = some mother ∧ LeadsTo search mother p

theorem OnCircle.back (hp : OnCircle search p) (h : LeadsTo search p q) : LeadsTo search q p := by
  induction h with
  | refl => exact .refl
  | @tail q r _ hstep ih =>
    by_cases hq : q = p
    · obtain ⟨m, hm, hback⟩ := hp
      rw [hq, hm] at hstep
      rw [← some.inj hstep]
      exact hback
    · exact ih.next hstep hq

theorem OnCircle.of_leadsTo (hp : OnCircle search p) (h : LeadsTo search p q) :
    OnCircle search q := by
  have hback := hp.back h
  by_cases hq : q = p
  · exact hq ▸ hp
  rcases cases_head hback with heq | ⟨m, hm, hrest⟩
  · exact absurd heq hq
  · exact ⟨m, hm, hrest.trans h⟩

theorem OnCircle.joined (hp : OnCircle search p) (hq : OnCircle search q)
    (hip : LeadsTo search i p) (hiq : LeadsTo search i q) :
    LeadsTo search p q ∧ LeadsTo search q p := by
  have hunique : Relator.RightUnique fun a b => search a = some b := fun a b b' hb hb' =>
    some.inj (hb.symm.trans hb')
  rcases total_of_right_unique hunique hip hiq with h | h
  · exact ⟨h, hp.back h⟩
  · exact ⟨hq.back h, h⟩

theorem Path.not_onCircle {l : List ℕ} (h : Path search p l) (hpq : LeadsTo search p q) :
    ¬ OnCircle search q := by
  rintro ⟨m, hm, hback⟩
  induction h with
  | root hroot =>
    rcases cases_head hpq with heq | ⟨m', hm', -⟩
    · rw [← heq, hroot] at hm
      cases hm
    rw [hroot] at hm'
    cases hm'
  | @up p r l hup _ ih =>
    by_cases hp : p = q
    · subst hp
      rw [hup] at hm
      rw [← some.inj hm] at hback
      exact ih hback
    · exact ih (hpq.next hup hp)

/-! ### Walks -/

theorem LeadsTo.mono (hsub : ∀ a b, search a = some b → other a = some b)
    (h : LeadsTo search p q) : LeadsTo other p q :=
  ReflTransGen.mono hsub p q h

theorem leadsTo_of_walk (h : walk search n checked p = some (child, mother)) :
    LeadsTo search p child ∧ search child = some mother := by
  induction n generalizing checked p with
  | zero => cases h
  | succ n ih =>
    obtain ⟨m, hup, ⟨-, rfl, rfl⟩ | ⟨-, hrest⟩⟩ := walk_succ h
    · exact ⟨.refl, hup⟩
    obtain ⟨hleads, hlink⟩ := ih hrest
    exact ⟨.head hup hleads, hlink⟩

theorem onCircle_of_walk (hchecked : ∀ x ∈ checked, LeadsTo search x p)
    (h : walk search n checked p = some (child, mother)) : LeadsTo search mother child := by
  induction n generalizing checked p with
  | zero => cases h
  | succ n ih =>
    obtain ⟨m, hup, ⟨hmem, rfl, rfl⟩ | ⟨-, hrest⟩⟩ := walk_succ h
    · rcases mem_cons.mp hmem with heq | hold
      · rw [heq]
        exact .refl
      · exact hchecked _ hold
    refine ih (fun x hx => ?_) hrest
    rcases mem_cons.mp hx with rfl | hold
    · exact .single hup
    · exact (hchecked x hold).tail hup

theorem walk_mono (hsub : ∀ a b, search a = some b → other a = some b) {found : ℕ × ℕ}
    (h : walk search n checked p = some found) : walk other n checked p = some found := by
  induction n generalizing checked p with
  | zero => cases h
  | succ n ih =>
    rw [walk] at h ⊢
    cases hup : search p with
    | none =>
      rw [hup] at h
      cases h
    | some m =>
      rw [hup] at h
      rw [hsub p m hup]
      dsimp only at h ⊢
      split at h
      · rename_i hmem
        rw [if_pos hmem]
        exact h
      rename_i hnew
      rw [if_neg hnew]
      exact ih h

theorem walk_restrict (hsame : ∀ x, LeadsTo search x child → other x = search x)
    (h : walk search n checked p = some (child, mother)) :
    walk other n checked p = some (child, mother) := by
  have hp := hsame p (leadsTo_of_walk h).1
  induction n generalizing checked p with
  | zero => cases h
  | succ n ih =>
    rw [walk] at h ⊢
    rw [hp]
    cases hup : search p with
    | none =>
      rw [hup] at h
      cases h
    | some m =>
      rw [hup] at h
      dsimp only at h ⊢
      split at h
      · rename_i hmem
        rw [if_pos hmem]
        exact h
      rename_i hnew
      rw [if_neg hnew]
      exact ih h (hsame m (leadsTo_of_walk h).1)

/-! ### Which links are removed -/

/-- The links that the first checks leave. -/
def Left (maxPoolId : ℕ) (first search : ℕ → Option ℕ) (n : ℕ) : Prop :=
  ∀ child mother, search child = some mother ↔
    first child = some mother ∧ ¬ Closed maxPoolId first n child mother

/-- **A check** finds the circle that the walk over all first mothers finds, if no pool before
leads to it. -/
theorem walk_checked {first : ℕ → Option ℕ}
    (hrange : ∀ g p, first g = some p → g ≤ maxPoolId ∧ p ≤ maxPoolId ∧ g ≠ p)
    (hleft : Left maxPoolId first search n) :
    walk search (maxPoolId + 2) [] n = some (child, mother) ↔
      walk first (maxPoolId + 2) [] n = some (child, mother) ∧
        ∀ j < n, ¬ LeadsTo first j mother := by
  have hsub : ∀ a b, search a = some b → first a = some b := fun a b h => ((hleft a b).mp h).1
  have hnil (s : ℕ → Option ℕ) (j : ℕ) : ∀ x ∈ ([] : List ℕ), LeadsTo s x j :=
    fun x hx => absurd hx not_mem_nil
  constructor
  · intro h
    have hfirst := walk_mono hsub h
    refine ⟨hfirst, ?_⟩
    by_contra hearlier
    push Not at hearlier
    -- the first pool that leads there has had its circle opened
    classical
    obtain ⟨j, ⟨hj, hlead⟩, hleast⟩ :
        ∃ j, (j < n ∧ LeadsTo first j mother) ∧ ∀ k < j, ¬ (k < n ∧ LeadsTo first k mother) :=
      ⟨Nat.find hearlier, Nat.find_spec hearlier, fun k hk => Nat.find_min hearlier hk⟩
    have hcircle : OnCircle search mother := by
      have hback := onCircle_of_walk (hnil search n) h
      obtain ⟨-, hlink⟩ := leadsTo_of_walk h
      exact OnCircle.of_leadsTo ⟨mother, hlink, hback⟩ (.single hlink)
    have hcircleFirst : OnCircle first mother := by
      obtain ⟨m, hm, hback⟩ := hcircle
      exact ⟨m, hsub _ _ hm, hback.mono hsub⟩
    obtain ⟨⟨c0, m0⟩, hwalk⟩ : ∃ found, walk first (maxPoolId + 2) [] j = some found := by
      cases hwalk : walk first (maxPoolId + 2) [] j with
      | some found => exact ⟨found, rfl⟩
      | none =>
        obtain ⟨l, hl⟩ := walk_none hrange _ [] (Nat.le_refl _) nodup_nil
          (fun x hx => absurd hx not_mem_nil) not_mem_nil hwalk
        exact absurd hcircleFirst (hl.not_onCircle hlead)
    obtain ⟨hlead0, hlink0⟩ := leadsTo_of_walk hwalk
    have hback0 := onCircle_of_walk (hnil first j) hwalk
    have hcircle0 : OnCircle first c0 := ⟨m0, hlink0, hback0⟩
    obtain ⟨hto, hfrom⟩ := hcircleFirst.joined hcircle0 hlead hlead0
    have hclosed : Closed maxPoolId first n c0 m0 := by
      refine ⟨j, hj, hwalk, fun k hk hkm => hleast k hk ⟨hk.trans hj, ?_⟩⟩
      exact (hkm.trans hback0).trans hfrom
    -- but it is still all there
    have hthere : LeadsTo search mother c0 := by
      clear hclosed hfrom hcircle0 hback0 hlink0 hlead0 hwalk
      induction hto with
      | refl => exact .refl
      | @tail x y _ hstep ih =>
        obtain ⟨y', hy', -⟩ := hcircle.of_leadsTo ih
        have heq := hsub _ _ hy'
        rw [hstep] at heq
        rw [some.inj heq]
        exact ih.tail hy'
    obtain ⟨m, hm, -⟩ := hcircle.of_leadsTo hthere
    have hfirstLink := hsub _ _ hm
    rw [hlink0] at hfirstLink
    rw [← some.inj hfirstLink] at hm
    exact ((hleft _ _).mp hm).2 hclosed
  rintro ⟨h, hearlier⟩
  have hback := onCircle_of_walk (hnil first n) h
  obtain ⟨-, hlink⟩ := leadsTo_of_walk h
  have hcircle : OnCircle first child := ⟨mother, hlink, hback⟩
  refine walk_restrict (fun x hx => ?_) h
  cases hup : first x with
  | none =>
    cases hs : search x with
    | none => rfl
    | some y =>
      have hy := hsub _ _ hs
      rw [hup] at hy
      cases hy
  | some y =>
    refine (hleft x y).mpr ⟨hup, ?_⟩
    rintro ⟨i, hi, hwalk, -⟩
    refine hearlier i hi ?_
    -- what leads into the circle does so by its next pool
    have hxy : LeadsTo first i y := (leadsTo_of_walk hwalk).1.tail (leadsTo_of_walk hwalk).2
    by_cases hne : x = child
    · subst hne
      rw [hup] at hlink
      rw [← some.inj hlink]
      exact hxy
    · exact (hxy.trans (hx.next hup hne)).tail hlink

/-! ### The groups -/

def PoolGroup.entries (group : PoolGroup) (explicit : Bool) : List ℕ :=
  if explicit then group.explicitlyChanced else group.equalChanced

theorem mem_members_iff (group : PoolGroup) :
    g ∈ group.members ↔ ∃ explicit, 0 < (group.entries explicit).count g := by
  simp only [PoolGroup.members, PoolGroup.entries, mem_append, count_pos_iff]
  constructor
  · rintro (h | h)
    · exact ⟨false, h⟩
    · exact ⟨true, h⟩
  rintro ⟨_ | _, h⟩
  · exact .inl h
  · exact .inr h

theorem count_addEntry (group : PoolGroup) (row : Row) (n : ℕ) (explicit : Bool) :
    ((group.addEntry row n).entries explicit).count g = (group.entries explicit).count g +
        if row.guid = g ∧ decide (row.chanced ∧ n = 1) = explicit then 1 else 0 := by
  by_cases hlist : row.chanced ∧ n = 1
  · simp only [PoolGroup.addEntry, if_pos hlist, decide_eq_true hlist]
    cases explicit with
    | false => simp [PoolGroup.entries]
    | true => simp [PoolGroup.entries, count_singleton]
  simp only [PoolGroup.addEntry, if_neg hlist, decide_eq_false hlist]
  cases explicit with
  | false => simp [PoolGroup.entries, count_singleton]
  | true => simp [PoolGroup.entries]

theorem count_removeOneRelation (group : PoolGroup) (explicit : Bool) :
    ((group.removeOneRelation child).entries explicit).count g =
      (group.entries explicit).count g - if child = g then 1 else 0 := by
  cases explicit <;> simp [PoolGroup.entries, PoolGroup.removeOneRelation, count_erase]

/-- What is loaded of the rows of `pool_pool`, before the check. -/
structure Loads (c : PoolMgr) (maxPoolId : ℕ) (limit : ℕ → ℕ) (rows : List Row) : Prop where
  maxPoolId_eq : c.maxPoolId = maxPoolId
  limit_eq : c.limit = limit
  search_eq : c.search .pool = firstMother maxPoolId rows
  count_eq : ∀ explicit child mother, ((c.groups .pool mother).entries explicit).count child =
    timesNamed maxPoolId limit rows explicit child mother

theorem Loads.addRow (hc : Loads c maxPoolId limit rows) (row : Row) :
    Loads (c.addRow .pool row) maxPoolId limit (rows ++ [row]) := by
  by_cases hrow : row.poolId ≤ maxPoolId ∧ row.guid ≤ maxPoolId ∧ row.poolId ≠ row.guid
  · obtain ⟨hmother, hchild, hne⟩ := id hrow
    have hloaded : loadedRows maxPoolId (rows ++ [row]) = loadedRows maxPoolId rows ++ [row] := by
      rw [loadedRows, filter_append, filter_singleton, decide_eq_true hrow]
      rfl
    have hmax := hc.maxPoolId_eq
    rw [PoolMgr.addRow, if_neg (by omega),
      if_neg fun h => h.2.elim (by omega) hne]
    refine ⟨hc.maxPoolId_eq, hc.limit_eq, ?_, fun explicit child mother => ?_⟩
    · funext g
      simp only [true_and, hc.search_eq, firstMother, hloaded, find?_append]
      cases hfind : (loadedRows maxPoolId rows).find? fun row => row.guid == g with
      | some old => simp
      | none =>
        by_cases hg : g = row.guid
        · simp [hg]
        · simp [hg, Ne.symm hg]
    have hcount := hc.count_eq explicit child mother
    simp only [true_and, timesNamed, hloaded, countP_append, countP_singleton]
    rw [timesNamed] at hcount
    by_cases hp : mother = row.poolId
    · rw [if_pos hp, count_addEntry, hcount, hc.limit_eq]
      by_cases hg : row.guid = child
      · simp [hp, hg]
      · simp [hg]
    rw [if_neg hp, hcount]
    simp [Ne.symm hp]
  have hloaded : loadedRows maxPoolId (rows ++ [row]) = loadedRows maxPoolId rows := by
    rw [loadedRows, filter_append, filter_singleton, decide_eq_false hrow]
    exact append_nil _
  have hskipped : c.addRow .pool row = c := by
    rw [PoolMgr.addRow, hc.maxPoolId_eq]
    split
    · rfl
    have hskip : row.guid > maxPoolId ∨ row.poolId = row.guid := by
      by_contra hneither
      rw [not_or] at hneither
      exact hrow ⟨by omega, by omega, hneither.2⟩
    exact if_pos ⟨rfl, hskip⟩
  rw [hskipped]
  refine ⟨hc.maxPoolId_eq, hc.limit_eq, ?_, fun explicit child mother => ?_⟩
  · rw [hc.search_eq]
    funext g
    rw [firstMother, firstMother, hloaded]
  · rw [hc.count_eq, timesNamed, timesNamed, hloaded]

theorem Loads.addRows (hc : Loads c maxPoolId limit []) (rows : List Row) :
    Loads (rows.foldl (PoolMgr.addRow .pool) c) maxPoolId limit rows := by
  induction rows using reverseRecOn with
  | nil => exact hc
  | append_singleton rows row ih =>
    rw [foldl_append]
    exact ih.addRow row

theorem Loads.addOthers (hc : Loads c maxPoolId limit rows) (hkind : kind ≠ .pool)
    (others : List Row) : Loads (others.foldl (PoolMgr.addRow kind) c) maxPoolId limit rows := by
  induction others generalizing c with
  | nil => exact hc
  | cons row others ih =>
    refine ih ?_
    rw [PoolMgr.addRow]
    split
    · exact hc
    rw [if_neg fun h => hkind h.1]
    refine ⟨hc.maxPoolId_eq, hc.limit_eq, ?_, fun explicit child mother => ?_⟩
    · rw [← hc.search_eq]
      funext g
      exact if_neg fun h => hkind h.1.symm
    rw [← hc.count_eq]
    exact congrArg (fun group : PoolGroup => (group.entries explicit).count child)
      (if_neg fun h => hkind h.1.symm)

theorem loads_templates (maxPoolId : ℕ) (limit : ℕ → ℕ) :
    Loads (.templates maxPoolId limit) maxPoolId limit [] := by
  refine ⟨rfl, rfl, rfl, fun explicit _ _ => ?_⟩
  cases explicit <;> rfl

/-! ### The check -/

/-- What the first checks leave: of each link that closes a circle one row is gone, and the
search map has forgotten it. -/
structure Checked (c : PoolMgr) (maxPoolId : ℕ) (limit : ℕ → ℕ) (rows : List Row) (n : ℕ) :
    Prop where
  maxPoolId_eq : c.maxPoolId = maxPoolId
  left : Left maxPoolId (firstMother maxPoolId rows) (c.search .pool) n
  removed : ∀ explicit child mother, Closed maxPoolId (firstMother maxPoolId rows) n child mother →
    ((c.groups .pool mother).entries explicit).count child =
      timesNamed maxPoolId limit rows explicit child mother - 1
  kept : ∀ explicit child mother, ¬ Closed maxPoolId (firstMother maxPoolId rows) n child mother →
    ((c.groups .pool mother).entries explicit).count child =
      timesNamed maxPoolId limit rows explicit child mother

theorem firstMother_inRange (h : firstMother maxPoolId rows child = some mother) :
    child ≤ maxPoolId ∧ mother ≤ maxPoolId ∧ child ≠ mother := by
  obtain ⟨row, hfind, rfl⟩ := map_eq_some_iff.mp h
  have hmem := mem_of_find?_eq_some hfind
  have hguid := find?_some hfind
  rw [loadedRows, mem_filter, decide_eq_true_eq] at hmem
  obtain ⟨-, hmother, hchild, hne⟩ := hmem
  rw [← of_decide_eq_true hguid]
  exact ⟨hchild, hmother, hne.symm⟩

theorem closed_zero (search : ℕ → Option ℕ) : ¬ Closed maxPoolId search 0 child mother := by
  rintro ⟨i, hi, -⟩
  omega

theorem closed_succ : Closed maxPoolId search (n + 1) child mother ↔
    Closed maxPoolId search n child mother ∨
      walk search (maxPoolId + 2) [] n = some (child, mother) ∧
        ∀ j < n, ¬ LeadsTo search j mother := by
  constructor
  · rintro ⟨i, hi, hwalk, hleast⟩
    by_cases heq : i = n
    · subst heq
      exact .inr ⟨hwalk, hleast⟩
    · exact .inl ⟨i, by omega, hwalk, hleast⟩
  rintro (⟨i, hi, hwalk, hleast⟩ | ⟨hwalk, hleast⟩)
  · exact ⟨i, by omega, hwalk, hleast⟩
  · exact ⟨n, by omega, hwalk, hleast⟩

theorem Loads.unchecked (hc : Loads c maxPoolId limit rows) : Checked c maxPoolId limit rows 0 where
  maxPoolId_eq := hc.maxPoolId_eq
  left child mother := by
    rw [hc.search_eq]
    exact ⟨fun h => ⟨h, closed_zero _⟩, fun h => h.1⟩
  removed _ _ _ h := absurd h (closed_zero _)
  kept explicit child mother _ := hc.count_eq explicit child mother

/-- **The check from one pool.** -/
theorem Checked.checkCircle (hc : Checked c maxPoolId limit rows n) :
    Checked (c.checkCircle n) maxPoolId limit rows (n + 1) := by
  have hwalk (child mother : ℕ) :
      walk (c.search .pool) (maxPoolId + 2) [] n = some (child, mother) ↔
        walk (firstMother maxPoolId rows) (maxPoolId + 2) [] n = some (child, mother) ∧
          ∀ j < n, ¬ LeadsTo (firstMother maxPoolId rows) j mother :=
    walk_checked (fun _ _ => firstMother_inRange) hc.left
  rw [PoolMgr.checkCircle, hc.maxPoolId_eq]
  cases hfound : PoolMgr.walk (c.search .pool) (maxPoolId + 2) [] n with
  | none =>
    have hsame (child mother : ℕ) :
        Closed maxPoolId (firstMother maxPoolId rows) (n + 1) child mother ↔
          Closed maxPoolId (firstMother maxPoolId rows) n child mother := by
      rw [closed_succ, ← hwalk, hfound]
      exact or_iff_left (fun h => by cases h)
    refine ⟨hc.maxPoolId_eq, fun child mother => ?_, fun explicit child mother h => ?_,
      fun explicit child mother h => ?_⟩
    · rw [hsame]
      exact hc.left child mother
    · exact hc.removed explicit child mother ((hsame child mother).mp h)
    · exact hc.kept explicit child mother (mt (hsame child mother).mpr h)
  | some found =>
    obtain ⟨c0, m0⟩ := found
    obtain ⟨-, hlink⟩ := leadsTo_of_walk hfound
    obtain ⟨hfirst, hnot⟩ := (hc.left c0 m0).mp hlink
    have hsucc (child mother : ℕ) :
        Closed maxPoolId (firstMother maxPoolId rows) (n + 1) child mother ↔
          Closed maxPoolId (firstMother maxPoolId rows) n child mother ∨
            (child = c0 ∧ mother = m0) := by
      rw [closed_succ, ← hwalk, hfound]
      constructor
      · rintro (h | h)
        · exact .inl h
        cases h
        exact .inr ⟨rfl, rfl⟩
      rintro (h | ⟨rfl, rfl⟩)
      · exact .inl h
      · exact .inr rfl
    refine ⟨hc.maxPoolId_eq, fun child mother => ?_, fun explicit child mother h => ?_,
      fun explicit child mother h => ?_⟩
    · rw [hsucc, search_removeLink, unlink]
      by_cases hchild : child = c0
      · subst hchild
        rw [if_pos rfl]
        constructor
        · intro h
          cases h
        rintro ⟨hmother, hneither⟩
        rw [hfirst] at hmother
        exact absurd (.inr ⟨rfl, (some.inj hmother).symm⟩) hneither
      rw [if_neg hchild, hc.left child mother]
      exact and_congr_right fun _ => not_congr (or_iff_left fun h => hchild h.1).symm
    · have hcount := hc.removed explicit child mother
      have hcount' := hc.kept explicit child mother
      simp only [removeLink, true_and]
      rcases (hsucc child mother).mp h with hold | ⟨rfl, rfl⟩
      · by_cases hm : mother = m0
        · have hchild : ¬ c0 = child := fun heq => hnot (by rw [heq, ← hm]; exact hold)
          rw [if_pos hm, count_removeOneRelation, if_neg hchild]
          exact hcount hold
        rw [if_neg hm]
        exact hcount hold
      · rw [if_pos rfl, count_removeOneRelation, if_pos rfl, hcount' hnot]
    rw [hsucc, not_or] at h
    have hcount := hc.kept explicit child mother h.1
    simp only [removeLink, true_and]
    by_cases hm : mother = m0
    · have hchild : ¬ c0 = child := fun heq => h.2 ⟨heq.symm, hm⟩
      rw [if_pos hm, count_removeOneRelation, if_neg hchild]
      exact hcount
    rw [if_neg hm]
    exact hcount

theorem Checked.checkCircles (hc : Checked c maxPoolId limit rows 0) (n : ℕ) :
    Checked ((List.range n).foldl PoolMgr.checkCircle c) maxPoolId limit rows n := by
  induction n with
  | zero => exact hc
  | succ n ih =>
    rw [range_succ, foldl_append]
    exact ih.checkCircle

/-- **The check** leaves the links that stay. -/
theorem Checked.mem_members (hc : Checked c maxPoolId limit rows maxPoolId) :
    child ∈ c.members .pool mother ↔ Stays maxPoolId limit rows child mother := by
  rw [members, mem_members_iff]
  refine exists_congr fun explicit => ?_
  by_cases hclosed : Closed maxPoolId (firstMother maxPoolId rows) maxPoolId child mother
  · rw [hc.removed explicit child mother hclosed]
    constructor
    · intro h
      exact ⟨by omega, fun _ => by omega⟩
    rintro ⟨-, h⟩
    have htwice := h hclosed
    omega
  rw [hc.kept explicit child mother hclosed]
  exact ⟨fun h => ⟨h, fun h' => absurd h' hclosed⟩, And.left⟩

theorem checked_loadFromDB (maxPoolId : ℕ) (limit : ℕ → ℕ)
    (creatures gameobjects pools : List Row) :
    Checked (.loadFromDB maxPoolId limit creatures gameobjects pools) maxPoolId limit pools
      maxPoolId := by
  have hothers := ((loads_templates maxPoolId limit).addOthers
    (by decide : Kind.creature ≠ .pool) creatures).addOthers
      (by decide : Kind.gameobject ≠ .pool) gameobjects
  exact (hothers.addRows pools).unchecked.checkCircles maxPoolId

/-! ### The recursion -/

/-- Pools without a circle have a depth: how many pools they are in, directly or not. -/
theorem exists_layered (hcircle : NoCircle fun child mother => child ∈ c.members .pool mother)
    (hrange : ∀ g p, g ∈ c.members .pool p → g ≤ c.maxPoolId ∧ p ≤ c.maxPoolId) :
    ∃ depth, Layered c depth := by
  classical
  let above (p : ℕ) : Finset ℕ := (Finset.range (c.maxPoolId + 1)).filter fun q =>
    TransGen (fun child mother => child ∈ c.members .pool mother) p q
  refine ⟨fun p => (above p).card, fun g p hg => Finset.card_lt_card ?_, fun p => ?_⟩
  · refine Finset.ssubset_iff_subset_ne.mpr ⟨fun q hq => ?_, fun heq => ?_⟩
    · obtain ⟨hle, habove⟩ := Finset.mem_filter.mp hq
      exact Finset.mem_filter.mpr ⟨hle, .head hg habove⟩
    have hp : p ∈ above g := by
      have hle := (hrange g p hg).2
      exact Finset.mem_filter.mpr ⟨Finset.mem_range.mpr (by omega), .single hg⟩
    rw [← heq] at hp
    exact hcircle p (Finset.mem_filter.mp hp).2
  by_cases hp : p ≤ c.maxPoolId
  · have hsub : above p ⊆ (Finset.range (c.maxPoolId + 1)).erase p := fun q hq => by
      obtain ⟨hle, habove⟩ := Finset.mem_filter.mp hq
      refine Finset.mem_erase.mpr ⟨fun heq => ?_, hle⟩
      rw [heq] at habove
      exact hcircle p habove
    have hcard := Finset.card_le_card hsub
    rw [Finset.card_erase_of_mem (Finset.mem_range.mpr (by omega)), Finset.card_range] at hcard
    exact hcard
  have hempty : above p = ∅ := Finset.eq_empty_of_forall_notMem fun q hq => by
    obtain ⟨m, hm, -⟩ := TransGen.head'_iff.mp (Finset.mem_filter.mp hq).2
    exact hp (hrange p m hm).1
  show (above p).card ≤ c.maxPoolId
  rw [hempty]
  exact Nat.zero_le _

theorem stays_inRange (h : Stays maxPoolId limit rows child mother) :
    child ≤ maxPoolId ∧ mother ≤ maxPoolId := by
  obtain ⟨explicit, hpos, -⟩ := h
  obtain ⟨row, hrow, hnamed⟩ := countP_pos_iff.mp hpos
  rw [loadedRows, mem_filter, decide_eq_true_eq] at hrow
  simp only [Bool.and_eq_true, beq_iff_eq] at hnamed
  rw [← hnamed.1.1, ← hnamed.1.2]
  exact ⟨hrow.2.2.1, hrow.2.1⟩

/-- **The nesting of the pools.**  Whatever the tables hold: after the check no pool leads to
itself and the recursion into the pools ends, exactly if in each circle of the rows there is
a link that closes a circle of first mothers and that no two rows put in the same list. -/
theorem nesting_right_iff (maxPoolId : ℕ) (limit : ℕ → ℕ) (creatures gameobjects pools : List Row) :
    NestingRight (.loadFromDB maxPoolId limit creatures gameobjects pools) ↔
      NoCircle (Stays maxPoolId limit pools) := by
  have hc := checked_loadFromDB maxPoolId limit creatures gameobjects pools
  generalize loadFromDB maxPoolId limit creatures gameobjects pools = c at hc ⊢
  have hstays : (fun child mother => child ∈ c.members .pool mother) =
      Stays maxPoolId limit pools := by
    funext child mother
    exact propext hc.mem_members
  rw [NestingRight, hstays]
  constructor
  · exact And.left
  intro hcircle
  refine ⟨hcircle, fun draws p m n hm hn => ?_⟩
  rw [deep] at hm hn
  obtain ⟨depth, hlayered⟩ := exists_layered (by rw [hstays]; exact hcircle)
    fun g p hg => by
      rw [hc.maxPoolId_eq]
      exact stays_inRange (hc.mem_members.mp hg)
  exact ⟨spawnPool_deep hlayered (by omega) (by omega),
    despawnPool_deep hlayered (by omega) (by omega)⟩

/-- The pool `1` is in the pools `3` and `2`, and `2` is in `1`: the search map leads from `1`
to `3` only, and `1` and `2` stay in each other. -/
theorem circle_through_second_mother : ¬ NestingRight (.loadFromDB 3 (fun _ => 1) [] []
      [⟨1, 3, false⟩, ⟨1, 2, false⟩, ⟨2, 1, false⟩]) := by
  rintro ⟨hcircle, -⟩
  exact hcircle 1 (.tail (.single (by decide : 1 ∈ members _ .pool 2))
    (by decide : 2 ∈ members _ .pool 1))

end ZerosCore.Pools
