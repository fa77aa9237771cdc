/-
# Spell groups

A row of `spell_group` puts a spell, or by a negative number another group, into a group.
`SpellMgr::LoadSpellGroups` (`src/server/game/Spells/SpellMgr.cpp`) drops the rows that name what
is not there and collects the spells of each group; `GetSetOfSpellsInSpellGroup` goes into the
nested groups, but only once into each.

A spell is collected for a group just when it is a member of a group that can be reached from it
(`loadSpellGroups_spec`), and how two spells stack is asked of both alike (`stackRules_symm`).
-/

import ZerosCore.Lib.Multimap
import Mathlib.Data.Finset.Sort

namespace ZerosCore.Spells

open Lib List Relation

def SPELL_GROUP_CORE_RANGE_MAX : ℕ := 5

def SPELL_GROUP_DB_RANGE_MIN : ℕ := 1000

/-- What the groups ask of the other tables: whether there is a spell, its rank, and the first
spell of its chain. -/
structure SpellStore where
  getSpellInfo : ℕ → Bool
  getRank : ℕ → ℕ
  getFirstSpellInChain : ℕ → ℕ

/-- The set of spells found, and the groups gone into. -/
structure Found where
  spells : Finset ℕ := ∅
  usedGroups : Finset ℕ := ∅

variable {store : SpellStore} {rows members : List (ℕ × ℤ)} {g h s fuel : ℕ} {f f' f'' : Found}
  {row : ℕ × ℤ}

/-- `SpellGroupSpellMap`: the groups with their members, a negative one being a group. -/
def equalRange (members : List (ℕ × ℤ)) (g : ℕ) : List (ℕ × ℤ) := members.filter fun row => row.1 = g

/-- One turn of the loop of `GetSetOfSpellsInSpellGroup`: a nested group is searched in its turn. -/
def Found.follow (search : ℕ → Found → Option Found) (f : Found) (row : ℕ × ℤ) : Option Found :=
  if row.2 < 0 then search row.2.natAbs f
  else some { f with spells := insert row.2.toNat f.spells }

/-- `GetSetOfSpellsInSpellGroup`, or nothing if the fuel is used up. -/
def getSetOfSpellsInSpellGroup (members : List (ℕ × ℤ)) : ℕ → ℕ → Found → Option Found
  | 0, _, _ => none
  | fuel + 1, g, f =>
    if g ∈ f.usedGroups then some f
    else (equalRange members g).foldlM (Found.follow (getSetOfSpellsInSpellGroup members fuel))
      { f with usedGroups := insert g f.usedGroups }

/-- The rows that are read: those in the range of the core are not. -/
def readRows (rows : List (ℕ × ℤ)) : List (ℕ × ℤ) :=
  rows.filter fun row => ¬(row.1 ≤ SPELL_GROUP_DB_RANGE_MIN ∧ SPELL_GROUP_CORE_RANGE_MAX ≤ row.1)

/-- The ids of the groups, as they are before rows are dropped. -/
def groupsOf (rows : List (ℕ × ℤ)) : Finset ℕ := ((readRows rows).map Prod.fst).toFinset

/-- The rows that stay: a group that some row names, or the first rank of a spell. -/
def accepted (store : SpellStore) (rows : List (ℕ × ℤ)) (row : ℕ × ℤ) : Bool :=
  if row.2 < 0 then row.2.natAbs ∈ groupsOf rows
  else store.getSpellInfo row.2.toNat && !(1 < store.getRank row.2.toNat)

/-- `mSpellGroupSpell` once the rows are checked. -/
def spellGroupSpell (store : SpellStore) (rows : List (ℕ × ℤ)) : List (ℕ × ℤ) :=
  ((readRows rows).foldl (fun m row => Multimap.insert Prod.fst row m) []).filter
    (accepted store rows)

/-- One turn of the last loop of `LoadSpellGroups`: the spells of the group go into the map. -/
def collectGroup (members : List (ℕ × ℤ)) (fuel : ℕ) (m : List (ℕ × ℕ)) (g : ℕ) :
    Option (List (ℕ × ℕ)) := do
  let f ← getSetOfSpellsInSpellGroup members fuel g {}
  some ((f.spells.sort (· ≤ ·)).foldl (fun m s => Multimap.insert Prod.fst (s, g) m) m)

/-- `mSpellSpellGroup` of `LoadSpellGroups`. -/
def loadSpellGroups (store : SpellStore) (rows : List (ℕ × ℤ)) (fuel : ℕ) :
    Option (List (ℕ × ℕ)) :=
  ((groupsOf rows).sort (· ≤ ·)).foldlM (collectGroup (spellGroupSpell store rows) fuel) []

/-! ### Reaching a group -/

/-- The second group is nested in the first. -/
def Nested (members : List (ℕ × ℤ)) (g h : ℕ) : Prop := ∃ row ∈ members, row.1 = g ∧ row.2 < 0 ∧
  row.2.natAbs = h

/-- The spell is a direct member of a group that can be reached from `g`. -/
def Member (members : List (ℕ × ℤ)) (g s : ℕ) : Prop :=
  ∃ h, ReflTransGen (Nested members) g h ∧ (h, (s : ℤ)) ∈ members

def Found.Has (f : Found) (row : ℕ × ℤ) : Prop :=
  if row.2 < 0 then row.2.natAbs ∈ f.usedGroups else row.2.toNat ∈ f.spells

/-- A search from `g` adds groups that can be reached and their members, and leaves no new group
but those in `unfinished` with a row that it has not followed. -/
structure Searched (members : List (ℕ × ℤ)) (g : ℕ) (unfinished : Finset ℕ) (f f' : Found) :
    Prop where
  groups : f.usedGroups ⊆ f'.usedGroups
  spells : f.spells ⊆ f'.spells
  reached : ∀ h ∈ f'.usedGroups, h ∈ f.usedGroups ∨ ReflTransGen (Nested members) g h
  collected : ∀ s ∈ f'.spells, s ∈ f.spells ∨ Member members g s
  closed : ∀ h ∈ f'.usedGroups, h ∈ f.usedGroups ∨ h ∈ unfinished ∨
    ∀ row ∈ members, row.1 = h → f'.Has row

variable {unfinished : Finset ℕ}

theorem Found.Has.mono (h : f.Has row) (hgroups : f.usedGroups ⊆ f'.usedGroups)
    (hspells : f.spells ⊆ f'.spells) : f'.Has row := by
  unfold Found.Has at h ⊢
  split_ifs at h ⊢
  · exact hgroups h
  · exact hspells h

theorem Searched.refl : Searched members g unfinished f f :=
  ⟨fun _ h => h, fun _ h => h, fun _ => .inl, fun _ => .inl, fun _ => .inl⟩

theorem Searched.trans (h1 : Searched members g unfinished f f')
    (h2 : Searched members g unfinished f' f'') : Searched members g unfinished f f'' := by
  refine ⟨h1.groups.trans h2.groups, h1.spells.trans h2.spells, fun h hh => ?_, fun s hs => ?_,
    fun h hh => ?_⟩
  · exact (h2.reached h hh).elim (h1.reached h) .inr
  · exact (h2.collected s hs).elim (h1.collected s) .inr
  obtain hold | hnew := h2.closed h hh
  · refine (h1.closed h hold).imp_right (Or.imp_right fun hall row hrow hkey => ?_)
    exact (hall row hrow hkey).mono h2.groups h2.spells
  · exact .inr hnew

theorem Searched.nested (hnested : Nested members g h) (hs : Searched members h ∅ f f') :
    Searched members g unfinished f f' where
  groups := hs.groups
  spells := hs.spells
  reached k hk := (hs.reached k hk).imp_right (.head hnested)
  collected s hs' := (hs.collected s hs').imp_right fun ⟨k, hk, hmem⟩ => ⟨k, .head hnested hk, hmem⟩
  closed k hk := (hs.closed k hk).imp_right fun hrows => .inr (hrows.resolve_left (by simp))

/-- **The rows of a group** are followed one after the other. -/
theorem follow_run {groups : Finset ℕ} {search : ℕ → Found → Option Found}
    (hsearch : ∀ h f, h ∈ groups → (groups \ f.usedGroups).card < fuel →
      ∃ f', search h f = some f' ∧ h ∈ f'.usedGroups ∧ Searched members h ∅ f f')
    (hgroups : ∀ g h, Nested members g h → h ∈ groups)
    (hrows : ∀ row ∈ rows, row ∈ members ∧ row.1 = g)
    (hfuel : (groups \ f.usedGroups).card < fuel) :
    ∃ f', rows.foldlM (Found.follow search) f = some f' ∧ Searched members g {g} f f' ∧
      ∀ row ∈ rows, f'.Has row := by
  induction rows generalizing f with
  | nil => exact ⟨f, rfl, .refl, by simp⟩
  | cons row rows ih =>
    obtain ⟨hmem, hkey⟩ := hrows row mem_cons_self
    have hstep : ∃ f1, f.follow search row = some f1 ∧ Searched members g {g} f f1 ∧
        f1.Has row := by
      unfold Found.follow Found.Has
      split_ifs with hneg
      · have hnested : Nested members g row.2.natAbs := ⟨row, hmem, hkey, hneg, rfl⟩
        obtain ⟨f1, hf1, hin, hs⟩ := hsearch _ f (hgroups _ _ hnested) hfuel
        exact ⟨f1, hf1, hs.nested hnested, hin⟩
      have hrefl : Searched members g {g} f f := .refl
      refine ⟨_, rfl, { hrefl with
        spells := Finset.subset_insert _ _
        collected := fun s hs => ?_
        closed := fun h => .inl }, Finset.mem_insert_self _ _⟩
      refine (Finset.mem_insert.mp hs).symm.imp_right fun hs => ⟨g, .refl, ?_⟩
      rw [hs, Int.toNat_of_nonneg (not_lt.mp hneg), ← hkey]
      exact hmem
    obtain ⟨f1, hf1, hs1, hhas⟩ := hstep
    have hless : (groups \ f1.usedGroups).card ≤ (groups \ f.usedGroups).card :=
      Finset.card_le_card (Finset.sdiff_subset_sdiff (fun _ h => h) hs1.groups)
    obtain ⟨f', hf', hs, hall⟩ := ih (fun r hr => hrows r (mem_cons_of_mem row hr))
      (lt_of_le_of_lt hless hfuel)
    refine ⟨f', by rw [foldlM_cons, hf1]; exact hf', hs1.trans hs, forall_mem_cons.mpr ⟨?_, hall⟩⟩
    exact hhas.mono hs.groups hs.spells

/-- **A search comes to its end**, with fuel for the groups it can still go into. -/
theorem search_spec {groups : Finset ℕ} (hgroups : ∀ g h, Nested members g h → h ∈ groups)
    (hg : g ∈ groups) (hfuel : (groups \ f.usedGroups).card < fuel) :
    ∃ f', getSetOfSpellsInSpellGroup members fuel g f = some f' ∧ g ∈ f'.usedGroups ∧
      Searched members g ∅ f f' := by
  induction fuel generalizing g f with
  | zero => omega
  | succ fuel ih =>
    unfold getSetOfSpellsInSpellGroup
    split_ifs with hused
    · exact ⟨f, rfl, hused, .refl⟩
    have hless : (groups \ insert g f.usedGroups).card < fuel := by
      have := Finset.card_lt_card (s := groups \ insert g f.usedGroups) (t := groups \ f.usedGroups)
        (Finset.ssubset_iff_of_subset (by grind) |>.mpr ⟨g, by grind⟩)
      omega
    have hrows : ∀ row ∈ equalRange members g, row ∈ members ∧ row.1 = g := fun row hrow => by
      simpa [equalRange] using hrow
    obtain ⟨f', hf', hs, hall⟩ := follow_run (fun h f hh hf => ih hh hf) hgroups hrows
      (f := { f with usedGroups := insert g f.usedGroups }) hless
    have hin := hs.groups (Finset.mem_insert_self g _)
    refine ⟨f', hf', hin, (Finset.subset_insert g _).trans hs.groups, hs.spells, fun h hh => ?_,
      hs.collected, fun h hh => ?_⟩
    · obtain hold | hnew := hs.reached h hh
      · refine (Finset.mem_insert.mp hold).symm.imp_right ?_
        rintro rfl
        exact .refl
      · exact .inr hnew
    by_cases hgh : h = g
    · exact .inr (.inr fun row hrow hkey => hall row (by simp [equalRange, hrow, hkey, hgh]))
    exact (hs.closed h hh).imp (fun hold => (Finset.mem_insert.mp hold).resolve_left hgh)
      fun hrows => .inr (hrows.resolve_left (by simp [hgh]))

theorem search_iff (hg : g ∈ f'.usedGroups) (hs : Searched members g ∅ {} f') :
    s ∈ f'.spells ↔ Member members g s := by
  have hclosed : ∀ h ∈ f'.usedGroups, ∀ row ∈ members, row.1 = h → f'.Has row := fun h hh =>
    ((hs.closed h hh).resolve_left (by simp)).resolve_left (by simp)
  have hreach : ∀ h, ReflTransGen (Nested members) g h → h ∈ f'.usedGroups := by
    intro h hh
    induction hh with
    | refl => exact hg
    | tail _ hnested ih =>
      obtain ⟨row, hrow, hkey, hneg, rfl⟩ := hnested
      have := hclosed _ ih row hrow hkey
      rwa [Found.Has, if_pos hneg] at this
  constructor
  · exact fun h => (hs.collected s h).resolve_left (by simp)
  rintro ⟨h, hh, hmem⟩
  have := hclosed h (hreach h hh) _ hmem rfl
  rwa [Found.Has, if_neg (by simp), Int.toNat_natCast] at this

/-! ### Loading -/

theorem mem_spellGroupSpell :
    row ∈ spellGroupSpell store rows ↔ row ∈ readRows rows ∧ accepted store rows row = true := by
  have hmem : ∀ (l m : List (ℕ × ℤ)),
      row ∈ l.foldl (fun m row => Multimap.insert Prod.fst row m) m ↔ row ∈ l ∨ row ∈ m := by
    intro l
    induction l with
    | nil => simp
    | cons r l ih => simp [ih, or_assoc, or_left_comm]
  simp [spellGroupSpell, hmem]

theorem foldl_insert_perm (spells : List ℕ) (g : ℕ) (m : List (ℕ × ℕ)) :
    (spells.foldl (fun m s => Multimap.insert Prod.fst (s, g) m) m).Perm
      (spells.map (fun s => (s, g)) ++ m) := by
  induction spells generalizing m with
  | nil => exact .refl _
  | cons s spells ih =>
    refine (ih _).trans ?_
    exact (Multimap.insert_perm.append_left _).trans perm_middle

/-- The pairs of a map are distinct, and are those of the groups that are done. -/
def Collected (members : List (ℕ × ℤ)) (done : ℕ → Prop) (m : List (ℕ × ℕ)) : Prop :=
  m.Nodup ∧ ∀ s g, (s, g) ∈ m ↔ done g ∧ Member members g s

variable {m : List (ℕ × ℕ)} {done : ℕ → Prop} {groups : Finset ℕ}

/-- One more group is collected, and no other is touched. -/
theorem Collected.step (hgroups : ∀ g h, Nested members g h → h ∈ groups) (hg : g ∈ groups)
    (hfuel : groups.card < fuel) (hnew : ¬ done g) (h : Collected members done m) :
    ∃ m', collectGroup members fuel m g = some m' ∧
      Collected members (fun h => done h ∨ h = g) m' := by
  obtain ⟨f, hf, hin, hs⟩ := search_spec hgroups hg (f := {}) (by simpa using hfuel)
  have hperm := foldl_insert_perm (f.spells.sort (· ≤ ·)) g m
  refine ⟨_, by rw [collectGroup, hf]; rfl, hperm.nodup_iff.mpr ?_, fun s h' => ?_⟩
  · refine nodup_append.mpr ⟨?_, h.1, ?_⟩
    · exact (Finset.sort_nodup _ _).map fun s t heq => (Prod.mk.inj heq).1
    rintro p hp ⟨s, _⟩ hq rfl
    obtain ⟨t, -, ht⟩ := mem_map.mp hp
    obtain ⟨-, rfl⟩ := Prod.mk.inj ht
    exact hnew ((h.2 s g).mp hq).1
  rw [hperm.mem_iff, mem_append, h.2, mem_map]
  have hiff := search_iff (s := s) hin hs
  constructor
  · rintro (⟨t, ht, heq⟩ | ⟨hdone, hmem⟩)
    · obtain ⟨rfl, rfl⟩ := Prod.mk.inj heq
      exact ⟨.inr rfl, hiff.mp ((Finset.mem_sort _).mp ht)⟩
    · exact ⟨.inl hdone, hmem⟩
  rintro ⟨hdone | rfl, hmem⟩
  · exact .inr ⟨hdone, hmem⟩
  · exact .inl ⟨s, (Finset.mem_sort _).mpr (hiff.mpr hmem), rfl⟩

theorem Collected.run (hgroups : ∀ g h, Nested members g h → h ∈ groups) {gs : List ℕ}
    (hgs : ∀ g ∈ gs, g ∈ groups ∧ ¬ done g) (hnodup : gs.Nodup) (hfuel : groups.card < fuel)
    (h : Collected members done m) : ∃ m', gs.foldlM (collectGroup members fuel) m = some m' ∧
      Collected members (fun g => done g ∨ g ∈ gs) m' := by
  induction gs generalizing done m with
  | nil => exact ⟨m, rfl, by simpa using h⟩
  | cons g gs ih =>
    obtain ⟨hg, hnodup⟩ := nodup_cons.mp hnodup
    obtain ⟨hmem, hnew⟩ := hgs g mem_cons_self
    obtain ⟨m1, hm1, h1⟩ := h.step hgroups hmem hfuel hnew
    obtain ⟨m', hm', h'⟩ := ih (fun h hh => ⟨(hgs h (mem_cons_of_mem g hh)).1, by grind⟩) hnodup h1
    refine ⟨m', by rw [foldlM_cons, hm1]; exact hm', ?_⟩
    simpa only [mem_cons, or_assoc] using h'

theorem Member.mem_groupsOf (h : Member (spellGroupSpell store rows) g s) : g ∈ groupsOf rows := by
  have hrow : ∀ row ∈ spellGroupSpell store rows, row.1 ∈ groupsOf rows := fun row hrow =>
    mem_toFinset.mpr (mem_map_of_mem (mem_spellGroupSpell.mp hrow).1)
  obtain ⟨h, hh, hmem⟩ := h
  obtain rfl | ⟨k, ⟨row, hmem', rfl, -⟩, -⟩ := hh.cases_head
  · exact hrow _ hmem
  · exact hrow _ hmem'

/-- **Loading comes to its end**, and a spell is in a group just when it is a member of a group that
can be reached from that group. -/
theorem loadSpellGroups_spec (store : SpellStore) (rows : List (ℕ × ℤ)) :
    ∀ fuel > rows.length, ∃ loaded, loadSpellGroups store rows fuel = some loaded ∧
      loaded.Nodup ∧ ∀ s g, (s, g) ∈ loaded ↔ Member (spellGroupSpell store rows) g s := by
  intro fuel hfuel
  have hgroups : ∀ g h, Nested (spellGroupSpell store rows) g h → h ∈ groupsOf rows := by
    rintro g h ⟨row, hrow, -, hneg, rfl⟩
    have := (mem_spellGroupSpell.mp hrow).2
    rw [accepted, if_pos hneg] at this
    simpa using this
  have hcard : (groupsOf rows).card < fuel := by
    have h1 := toFinset_card_le ((readRows rows).map Prod.fst)
    have h2 : ((readRows rows).map Prod.fst).length ≤ rows.length := by
      rw [length_map]
      exact length_filter_le _ _
    unfold groupsOf
    omega
  have hsort (g : ℕ) (hg : g ∈ (groupsOf rows).sort (· ≤ ·)) : g ∈ groupsOf rows ∧ ¬False :=
    ⟨(Finset.mem_sort _).mp hg, not_false⟩
  obtain ⟨loaded, hloaded, hnodup, hall⟩ := Collected.run (m := []) hgroups hsort
    (Finset.sort_nodup _ _) hcard ⟨nodup_nil, by simp⟩
  refine ⟨loaded, hloaded, hnodup, fun s g => (hall s g).trans ?_⟩
  exact and_iff_right_of_imp fun h => .inr ((Finset.mem_sort _).mpr h.mem_groupsOf)

/-! ### How two spells stack -/

inductive SpellGroupStackRule
  | default | exclusive | exclusiveFromSameCaster | exclusiveSameEffect
deriving DecidableEq

/-- The maps that `CheckSpellGroupStackRules` reads. -/
structure SpellGroups where
  mSpellSpellGroup : List (ℕ × ℕ)
  mSpellGroupSpell : List (ℕ × ℤ)
  mSpellGroupStack : ℕ → Option SpellGroupStackRule

namespace SpellGroups

variable {x : SpellGroups}

/-- `GetSpellSpellGroupMapBounds`: the groups of the first spell of the chain. -/
def groupsOfSpell (x : SpellGroups) (store : SpellStore) (spell : ℕ) : List ℕ :=
  (x.mSpellSpellGroup.filter fun row => row.1 = store.getFirstSpellInChain spell).map Prod.snd

def isSpellMemberOfSpellGroup (x : SpellGroups) (store : SpellStore) (spell g : ℕ) : Bool :=
  (x.groupsOfSpell store spell).any (· = g)

def inNested (x : SpellGroups) (store : SpellStore) (spell1 spell2 g : ℕ) : Bool :=
  (equalRange x.mSpellGroupSpell g).any fun row => row.2 < 0 &&
    x.isSpellMemberOfSpellGroup store spell1 row.2.natAbs &&
    x.isSpellMemberOfSpellGroup store spell2 row.2.natAbs

/-- The last loop: the rule of the first group that has one other than the default. -/
def firstRule (x : SpellGroups) : List ℕ → SpellGroupStackRule → SpellGroupStackRule
  | [], rule => rule
  | g :: groups, rule =>
    let rule := (x.mSpellGroupStack g).getD rule
    if rule ≠ .default then rule else x.firstRule groups rule

def checkSpellGroupStackRules (x : SpellGroups) (store : SpellStore) (spellInfo1 spellInfo2 : ℕ)
    (checkSelf : Bool) : SpellGroupStackRule :=
  let spellid1 := store.getFirstSpellInChain spellInfo1
  let spellid2 := store.getFirstSpellInChain spellInfo2
  if spellid1 = spellid2 ∧ !checkSelf then .default
  else
    let groups := (x.groupsOfSpell store spellid1).filter fun g =>
      x.isSpellMemberOfSpellGroup store spellid2 g && !x.inNested store spellid1 spellid2 g
    x.firstRule (groups.toFinset.sort (· ≤ ·)) .default

theorem isSpellMember_iff {spell : ℕ} :
    x.isSpellMemberOfSpellGroup store spell g = true ↔ g ∈ x.groupsOfSpell store spell := by
  simp [isSpellMemberOfSpellGroup]

theorem inNested_symm (spell1 spell2 : ℕ) :
    x.inNested store spell1 spell2 g = x.inNested store spell2 spell1 g := by
  simp only [inNested, Bool.and_assoc, Bool.and_comm (x.isSpellMemberOfSpellGroup store spell1 _)]

theorem stackRules_symm (x : SpellGroups) (store : SpellStore) (spellInfo1 spellInfo2 : ℕ)
    (checkSelf : Bool) : x.checkSpellGroupStackRules store spellInfo1 spellInfo2 checkSelf =
      x.checkSpellGroupStackRules store spellInfo2 spellInfo1 checkSelf := by
  unfold checkSpellGroupStackRules
  simp only [eq_comm (a := store.getFirstSpellInChain spellInfo1)]
  split_ifs
  · rfl
  congr 2
  ext g
  simp only [mem_toFinset, mem_filter, Bool.and_eq_true, isSpellMember_iff, inNested_symm]
  grind

end SpellGroups

/-- **Loading comes to its end and collects what can be reached, and two spells stack the same
whichever is asked first.**  The spells count by their first ranks alone. -/
theorem spellGroups_spec (store : SpellStore) (rows : List (ℕ × ℤ))
    (stack : ℕ → Option SpellGroupStackRule) : ∀ fuel > rows.length, ∃ loaded,
      loadSpellGroups store rows fuel = some loaded ∧ loaded.Nodup ∧
        (∀ s g, (s, g) ∈ loaded ↔ Member (spellGroupSpell store rows) g s) ∧
        ∀ a b checkSelf,
          let check := (SpellGroups.mk loaded (spellGroupSpell store rows)
            stack).checkSpellGroupStackRules store
          check a b checkSelf = check b a checkSelf ∧
            ∀ a' b', store.getFirstSpellInChain a' = store.getFirstSpellInChain a →
              store.getFirstSpellInChain b' = store.getFirstSpellInChain b →
              check a' b' checkSelf = check a b checkSelf := by
  intro fuel hfuel
  obtain ⟨loaded, hloaded, hnodup, hall⟩ := loadSpellGroups_spec store rows fuel hfuel
  refine ⟨loaded, hloaded, hnodup, hall, fun a b checkSelf =>
    ⟨SpellGroups.stackRules_symm _ store a b checkSelf, fun a' b' ha hb => ?_⟩⟩
  simp only [SpellGroups.checkSpellGroupStackRules, ha, hb]

/-- Two groups nested in each other, one with a spell. -/
theorem circle_collected :
    ∃ loaded, loadSpellGroups ⟨fun s => s == 7, fun _ => 1, id⟩
      [(1001, -1002), (1002, -1001), (1002, 7)] 4 = some loaded ∧ loaded.Nodup := by
  obtain ⟨loaded, hloaded, hnodup, -⟩ := spellGroups_spec ⟨fun s => s == 7, fun _ => 1, id⟩
    [(1001, -1002), (1002, -1001), (1002, 7)] (fun _ => none) 4 (by decide)
  exact ⟨loaded, hloaded, hnodup⟩

end ZerosCore.Spells
