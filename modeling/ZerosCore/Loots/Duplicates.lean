/-
# How often an item drops

An item that can be equipped is to drop once in a loot and any other up to three times.
`LootGroup::Process` looks for a duplicate among the items.  `LootTemplate::Process` goes
through the items in the same way, but each `continue` of its search goes on with the search and
not with the entry, so that no entry of its own is ever a duplicate; neither looks at the quest
drops.  The mode is tested for a common bit in one of them, and for a bit too much in the other:
an entry without any mode passes.

`LootTemplate.Spared` goes through a template as a run does, turn by turn of its loops, and asks
of the loot before each turn whether the test that is missing there would have found something.
The limits and the modes hold of a loot just when it would not (`drops_limited_iff`).
-/

import ZerosCore.Loots.Termination
import ZerosCore.Lib.Run

namespace ZerosCore.Loots.Templates

open Lib List Option

variable {w : World} {dice : ℕ → Draw} {references : LootTemplateMap} {rate : Bool}
  {lootMode : UInt16} {t : LootTemplate} {i : LootStoreItem} {s s' : Fill} {groupId fuel : ℕ}
  {l : Loot} {itemid : UInt32} {proto : ItemTemplate}

/-- How often an item may drop. -/
def limit (proto : ItemTemplate) : ℕ := if proto.inventoryType = 0 then 3 else 1

def occurrences (itemid : UInt32) (items : List LootItem) : ℕ :=
  items.countP fun it => it.store.itemid = itemid

/-- How often an item is in a loot. -/
def copies (l : Loot) (itemid : UInt32) : ℕ :=
  occurrences itemid l.items + occurrences itemid l.questItems

/-- No item is in the loot more often than it may drop. -/
def Limited (w : World) (l : Loot) : Prop :=
  ∀ itemid proto, w.getItemTemplate itemid = some proto → copies l itemid ≤ limit proto

/-! ### The tests that are missing -/

/-- The list that an item goes to is full. -/
def Full (l : Loot) (i : LootStoreItem) : Prop :=
  if i.needsQuest then maxNrQuestItems ≤ l.questItems.length else maxNrLootItems ≤ l.items.length

/-- The test of `LootGroup::Process`, made of all that is in a loot. -/
def repeated (w : World) (l : Loot) (itemid : UInt32) : Bool :=
  (w.getItemTemplate itemid).elim false
    fun proto => (findDuplicate proto itemid (l.items ++ l.questItems)).2

/-- An item may be added: there is no room for it, or the test finds no duplicate. -/
def Fits (w : World) (l : Loot) (i : LootStoreItem) : Prop :=
  Full l i ∨ repeated w l i.itemid = false

/-- The turn of an entry of its own that takes its chance: it has a mode, and may be added. -/
def PlainSpared (w : World) (s : Fill) (i : LootStoreItem) : Prop :=
  i.lootmode ≠ 0 ∧ Fits w s.loot i

/-- The turn of an item of a group that is no duplicate among the items: it may be added if quest
drops play a part. -/
def GroupedSpared (w : World) (s : Fill) (i : LootStoreItem) : Prop :=
  i.needsQuest = true ∨ 0 < occurrences i.itemid s.loot.questItems → Fits w s.loot i

section Spared

variable (w : World) (dice : ℕ → Draw) (lootMode : UInt16)

/-- The turns of the loop of `LootGroup::Process`. -/
def DropsSpared : ℕ → List LootStoreItem → List LootStoreItem → Fill → Prop
  | 0, _, _, _ => True
  | left + 1, explicit, equal, s =>
    let s1 := if explicit.isEmpty then s else { s with drawn := s.drawn + 1 }
    match rollExplicit (dice s.drawn).chance explicit with
    | item :: rest =>
      if item.lootmode &&& lootMode ≠ 0 then
        if duplicate w s1 item.itemid then DropsSpared left rest equal s1
        else GroupedSpared w s1 item
      else DropsSpared left (item :: rest) equal s1
    | [] =>
      let index := (dice s1.drawn).pick % equal.length
      match equal[index]? with
      | none => True
      | some item =>
        let s2 := { s1 with drawn := s1.drawn + 1 }
        if item.lootmode &&& lootMode ≠ 0 then
          if duplicate w s2 item.itemid then DropsSpared left [] (equal.eraseIdx index) s2
          else GroupedSpared w s2 item
        else DropsSpared left [] equal s2

def LootGroup.Spared (g : LootGroup) (s : Fill) : Prop :=
  DropsSpared w dice lootMode ((g.explicitlyChanced.length + g.equalChanced.length) % 2 ^ 8)
    g.explicitlyChanced g.equalChanced s

/-- The turn of an entry: each time that it rolls the template it refers to, or its own turn. -/
def EntrySpared (references : LootTemplateMap) (process : LootTemplate → ℕ → Fill → Option Fill)
    (spared : LootTemplate → ℕ → Fill → Prop) (rate : Bool) (s : Fill) (i : LootStoreItem) : Prop :=
  i.lootmode &&& ~~~lootMode = 0 → (i.roll w dice rate s).1 = true →
    if i.mincountOrRef < 0 then ∀ referenced ∈ references.lookup i.reference,
      AlongM (fun s _ => process referenced i.group s) (fun s _ => spared referenced i.group s)
        (i.roll w dice rate s).2 (replicate (i.multiplicity w) ())
    else PlainSpared w (i.roll w dice rate s).2 i

/-- **The missing tests would find nothing** at any turn with which a template is rolled. -/
def LootTemplate.Spared (references : LootTemplateMap) (rate : Bool) :
    ℕ → LootTemplate → ℕ → Fill → Prop
  | 0, _, _, _ => True
  | fuel + 1, t, groupId, s =>
    let process := LootTemplate.process w dice references rate lootMode fuel
    let entry := processEntry w dice references process rate lootMode
    if groupId ≠ 0 then ∀ g ∈ t.groups[groupId - 1]?, g.Spared w dice lootMode s
    else
      AlongM entry (EntrySpared w dice lootMode references process
          (LootTemplate.Spared references rate fuel) rate) s t.entries ∧
        ∀ s' ∈ t.entries.foldlM entry s,
          Along (fun s g => g.process w dice lootMode s) (fun s g => g.Spared w dice lootMode s) s'
            t.groups

end Spared

/-! ### The search -/

theorem findDuplicate_eq (proto : ItemTemplate) (itemid : UInt32) (items : List LootItem) :
    (findDuplicate proto itemid items).2 = decide (limit proto ≤ occurrences itemid items) := by
  have hfold (items : List LootItem) (counter : ℕ) (found : Bool)
      (hfound : found = decide (limit proto ≤ counter)) :
      (items.foldl (fun s it =>
          if it.store.itemid = itemid then
            let counter := s.1 + 1
            if proto.inventoryType = 0 ∧ counter = 3 then (counter, true)
            else if proto.inventoryType ≠ 0 ∧ counter = 1 then (counter, true)
            else (counter, s.2)
          else s)
        (counter, found)).2 = decide (limit proto ≤ counter + occurrences itemid items) := by
    induction items generalizing counter found with
    | nil => exact hfound
    | cons it items ih =>
      unfold occurrences
      rw [foldl_cons, countP_cons]
      by_cases hsame : it.store.itemid = itemid
      · have hnext (found' : Bool) (h : found' = decide (limit proto ≤ counter + 1)) :=
          ih (counter + 1) found' h
        have hcount : counter + 1 + occurrences itemid items =
            counter + (occurrences itemid items + 1) := by omega
        rw [if_pos hsame, if_pos (decide_eq_true hsame)]
        rw [hcount] at hnext
        unfold limit at hfound hnext ⊢
        by_cases hplain : proto.inventoryType = 0
        · simp only [if_pos hplain] at hfound hnext ⊢
          by_cases hthird : counter + 1 = 3
          · rw [if_pos ⟨hplain, hthird⟩]
            exact hnext true (by simp [hthird])
          rw [if_neg fun h => hthird h.2, if_neg fun h => h.1 hplain]
          refine hnext found ?_
          rw [hfound, decide_eq_decide]
          omega
        simp only [if_neg hplain] at hfound hnext ⊢
        by_cases hfirst : counter + 1 = 1
        · rw [if_neg fun h => hplain h.1, if_pos ⟨hplain, hfirst⟩]
          exact hnext true (by simp [hfirst])
        rw [if_neg fun h => hplain h.1, if_neg fun h => hfirst h.2]
        refine hnext found ?_
        rw [hfound, decide_eq_decide]
        omega
      rw [if_neg hsame, if_neg (by simpa using hsame)]
      exact ih counter found hfound
  have hstart := hfold items 0 false (by
    unfold limit
    split
    · rfl
    · rfl)
  rw [Nat.zero_add] at hstart
  exact hstart

theorem occurrences_append (itemid : UInt32) (items items' : List LootItem) :
    occurrences itemid (items ++ items') =
      occurrences itemid items + occurrences itemid items' :=
  countP_append

theorem duplicate_eq_false : duplicate w s itemid = false ↔ ∀ proto,
    w.getItemTemplate itemid = some proto → occurrences itemid s.loot.items < limit proto := by
  unfold duplicate
  cases w.getItemTemplate itemid with
  | none => simp
  | some proto => simp [findDuplicate_eq]

theorem repeated_eq_false : repeated w l itemid = false ↔
    ∀ proto, w.getItemTemplate itemid = some proto → copies l itemid < limit proto := by
  unfold repeated copies
  rw [← occurrences_append]
  cases w.getItemTemplate itemid with
  | none => simp
  | some proto => simp [findDuplicate_eq]

/-! ### The limits -/

theorem addItem_full {d : Drop} (h : Full l d.item) : l.addItem (d.stored w) = l := by
  have h : if (d.stored w).needsQuest then maxNrQuestItems ≤ l.questItems.length
    else maxNrLootItems ≤ l.items.length := h
  unfold Loot.addItem
  split at h
  · rename_i hquest
    rw [if_pos hquest, if_neg (Nat.not_lt.mpr h)]
  rename_i hquest
  rw [if_neg hquest, if_neg (Nat.not_lt.mpr h)]

theorem copies_addItem {d : Drop} (h : ¬Full l d.item) (itemid : UInt32) :
    copies (l.addItem (d.stored w)) itemid =
      copies l itemid + if d.item.itemid = itemid then 1 else 0 := by
  have h : ¬if (d.stored w).needsQuest then maxNrQuestItems ≤ l.questItems.length
    else maxNrLootItems ≤ l.items.length := h
  have hone : occurrences itemid [LootItem.ofStore (d.stored w)] =
      if d.item.itemid = itemid then 1 else 0 := by
    unfold occurrences
    rw [countP_singleton]
    simp only [decide_eq_true_eq]
    rfl
  unfold Loot.addItem copies
  split at h
  · rename_i hquest
    rw [if_pos hquest, if_pos (Nat.not_le.mp h)]
    dsimp only
    rw [occurrences_append, hone]
    omega
  rename_i hquest
  rw [if_neg hquest, if_pos (Nat.not_le.mp h)]
  dsimp only
  rw [occurrences_append, hone]
  omega

/-- **One item**: the limits hold after it just when they held before and it may be added. -/
theorem limited_addItem {grouped : Bool} :
    Limited w (s.addItem w dice grouped i).loot ↔ Limited w s.loot ∧ Fits w s.loot i := by
  unfold Fits
  rw [repeated_eq_false]
  by_cases hfull : Full s.loot i
  · have hsame : (s.addItem w dice grouped i).loot = s.loot := addItem_full hfull
    rw [hsame]
    exact ⟨fun hl => ⟨hl, .inl hfull⟩, And.left⟩
  have hcopies (itemid : UInt32) : copies (s.addItem w dice grouped i).loot itemid =
      copies s.loot itemid + if i.itemid = itemid then 1 else 0 := copies_addItem hfull itemid
  constructor
  · intro hl
    refine ⟨fun itemid proto hproto => ?_, .inr fun proto hproto => ?_⟩
    · have hle := hl itemid proto hproto
      rw [hcopies] at hle
      omega
    have hle := hl i.itemid proto hproto
    rw [hcopies, if_pos rfl] at hle
    omega
  rintro ⟨hl, hfits⟩ itemid proto hproto
  have hle := hl itemid proto hproto
  rw [hcopies]
  split
  · rename_i hsame
    subst hsame
    have hlt := hfits.resolve_left hfull proto hproto
    omega
  · omega

theorem and_ne_zero_iff {x m : UInt16} (h : x &&& ~~~m = 0) : x &&& m ≠ 0 ↔ x ≠ 0 := by
  have hsame : x &&& m = x := by
    have hsplit : (x &&& m) ||| (x &&& ~~~m) = x := by
      rw [← UInt16.toBitVec_inj]
      simp only [UInt16.toBitVec_or, UInt16.toBitVec_and, UInt16.toBitVec_not]
      ext k hk
      simp only [BitVec.getElem_or, BitVec.getElem_and, BitVec.getElem_not]
      cases x.toBitVec[k] with
      | true =>
        cases m.toBitVec[k] with
        | true | false => rfl
      | false => rfl
    rw [h, UInt16.or_zero] at hsplit
    exact hsplit
  rw [hsame]

/-! ### Turns -/

/-- What a loot and its drops should be. -/
def Right (w : World) (lootMode : UInt16) (s : Fill) : Prop :=
  Limited w s.loot ∧ ∀ d ∈ s.drops, d.item.lootmode &&& lootMode ≠ 0

theorem right_addItem {grouped : Bool} : Right w lootMode (s.addItem w dice grouped i) ↔
    Right w lootMode s ∧ Fits w s.loot i ∧ i.lootmode &&& lootMode ≠ 0 := by
  have hdrops : (∀ d ∈ (s.addItem w dice grouped i).drops, d.item.lootmode &&& lootMode ≠ 0) ↔
      (∀ d ∈ s.drops, d.item.lootmode &&& lootMode ≠ 0) ∧ i.lootmode &&& lootMode ≠ 0 := by
    simp [Fill.addItem, or_imp, forall_and]
  unfold Right
  rw [hdrops, limited_addItem, and_and_and_comm]

theorem right_plain (hmode : i.lootmode &&& ~~~lootMode = 0) :
    Right w lootMode (s.addItem w dice false i) ↔ Right w lootMode s ∧ PlainSpared w s i := by
  rw [right_addItem, and_ne_zero_iff hmode, PlainSpared, and_comm (a := Fits w s.loot i)]

theorem right_grouped (hmode : i.lootmode &&& lootMode ≠ 0)
    (hunique : ¬duplicate w s i.itemid = true) :
    Right w lootMode (s.addItem w dice true i) ↔ Right w lootMode s ∧ GroupedSpared w s i := by
  rw [right_addItem, GroupedSpared]
  refine and_congr_right fun _ => ⟨fun h _ => h.1, fun h => ⟨?_, hmode⟩⟩
  by_cases hquest : i.needsQuest = true ∨ 0 < occurrences i.itemid s.loot.questItems
  · exact h hquest
  -- without quest drops the test of the group sees all that is there
  refine .inr (repeated_eq_false.mpr fun proto hproto => ?_)
  have hlt := duplicate_eq_false.mp (Bool.not_eq_true _ ▸ hunique) proto hproto
  unfold copies
  omega

/-- **The loop of a group**, by induction on the attempts. -/
theorem right_processDrops (left : ℕ) (explicit equal : List LootStoreItem) (s : Fill) :
    Right w lootMode (processDrops w dice lootMode left explicit equal s) ↔
      Right w lootMode s ∧ DropsSpared w dice lootMode left explicit equal s := by
  induction left generalizing explicit equal s with
  | zero => exact (and_iff_left trivial).symm
  | succ left ih =>
    unfold processDrops DropsSpared
    dsimp only
    have hdrawn : Right w lootMode (if explicit.isEmpty then s else { s with drawn := s.drawn + 1 }) ↔
        Right w lootMode s := by
      split <;> exact Iff.rfl
    rw [← hdrawn]
    generalize (if explicit.isEmpty then s else { s with drawn := s.drawn + 1 }) = s1
    cases rollExplicit (dice s.drawn).chance explicit with
    | cons item rest =>
      dsimp only
      by_cases hmode : item.lootmode &&& lootMode ≠ 0
      · rw [if_pos hmode, if_pos hmode]
        by_cases hdup : duplicate w s1 item.itemid = true
        · rw [if_pos hdup, if_pos hdup]
          exact ih ..
        · rw [if_neg hdup, if_neg hdup]
          exact right_grouped hmode hdup
      · rw [if_neg hmode, if_neg hmode]
        exact ih ..
    | nil =>
      dsimp only
      cases equal[(dice s1.drawn).pick % equal.length]? with
      | none => exact (and_iff_left trivial).symm
      | some item =>
        dsimp only
        have hpicked : Right w lootMode { s1 with drawn := s1.drawn + 1 } ↔ Right w lootMode s1 :=
          Iff.rfl
        rw [← hpicked]
        by_cases hmode : item.lootmode &&& lootMode ≠ 0
        · rw [if_pos hmode, if_pos hmode]
          by_cases hdup : duplicate w { s1 with drawn := s1.drawn + 1 } item.itemid = true
          · rw [if_pos hdup, if_pos hdup]
            exact ih ..
          · rw [if_neg hdup, if_neg hdup]
            exact right_grouped hmode hdup
        · rw [if_neg hmode, if_neg hmode]
          exact ih ..

theorem right_roll (dice : ℕ → Draw) (i : LootStoreItem) (rate : Bool) (s : Fill) :
    Right w lootMode (i.roll w dice rate s).2 ↔ Right w lootMode s := by
  unfold LootStoreItem.roll
  split
  · exact Iff.rfl
  · split <;> exact Iff.rfl

theorem times_eq_foldlM (f : Fill → Option Fill) (n : ℕ) (s : Fill) :
    times f n s = (replicate n ()).foldlM (fun s _ => f s) s := by
  induction n generalizing s with
  | zero => rfl
  | succ n ih => exact bind_congr fun s' _ => ih s'

/-- **The turn of an entry.** -/
theorem right_processEntry {process : LootTemplate → ℕ → Fill → Option Fill}
    {spared : LootTemplate → ℕ → Fill → Prop}
    (h : ∀ t groupId s s', process t groupId s = some s' →
      (Right w lootMode s' ↔ Right w lootMode s ∧ spared t groupId s))
    (hs : processEntry w dice references process rate lootMode s i = some s') :
    Right w lootMode s' ↔ Right w lootMode s ∧
      EntrySpared w dice lootMode references process spared rate s i := by
  rw [processEntry_eq] at hs
  unfold EntrySpared
  rw [← right_roll dice i rate s]
  by_cases hmode : i.lootmode &&& ~~~lootMode = 0
  · rw [if_neg (not_not.mpr hmode)] at hs
    by_cases hroll : (i.roll w dice rate s).1 = true
    · rw [forall_prop_of_true hmode, forall_prop_of_true hroll]
      rw [if_neg (by simp [hroll])] at hs
      split at hs
      · rename_i hreference
        rw [if_pos hreference]
        cases hlookup : references.lookup i.reference with
        | none =>
          rw [hlookup] at hs
          cases hs
          simp
        | some referenced =>
          rw [hlookup] at hs
          dsimp only at hs
          rw [times_eq_foldlM] at hs
          simp only [mem_some_iff, forall_eq']
          exact foldlM_iff_alongM (fun s _ s' => h referenced i.group s s') hs
      rename_i hplain
      rw [if_neg hplain]
      cases hs
      exact right_plain hmode
    rw [if_pos (by simpa using hroll)] at hs
    cases hs
    exact (and_iff_left fun _ h => absurd h hroll).symm
  rw [if_pos hmode] at hs
  cases hs
  rw [right_roll]
  exact (and_iff_left fun h => absurd h hmode).symm

/-- **A template**, by induction on the fuel. -/
theorem right_process (h : t.process w dice references rate lootMode fuel groupId s = some s') :
    Right w lootMode s' ↔
      Right w lootMode s ∧ t.Spared w dice lootMode references rate fuel groupId s := by
  induction fuel generalizing t groupId s s' with
  | zero => cases h
  | succ fuel ih =>
    unfold LootTemplate.process at h
    unfold LootTemplate.Spared
    dsimp only
    by_cases hgroup : groupId ≠ 0
    · rw [if_pos hgroup] at h ⊢
      cases hg : t.groups[groupId - 1]? with
      | none =>
        rw [hg] at h
        cases h
        simp
      | some g =>
        rw [hg] at h
        cases h
        simp only [mem_some_iff, forall_eq']
        exact right_processDrops ..
    rw [if_neg hgroup] at h ⊢
    obtain ⟨s1, hs1, rfl⟩ := map_eq_some_iff.mp h
    have hentries := foldlM_iff_alongM (Q := Right w lootMode)
      (fun _ _ _ hentry => right_processEntry (fun _ _ _ _ => ih) hentry) hs1
    have hgroups : Right w lootMode (t.groups.foldl (fun s g => g.process w dice lootMode s) s1) ↔
        Right w lootMode s1 ∧ Along (fun s g => g.process w dice lootMode s)
          (fun s g => g.Spared w dice lootMode s) s1 t.groups :=
      foldl_iff_along (I := fun _ => True) (fun _ _ _ => trivial)
        (fun _ _ _ => right_processDrops ..) trivial
    rw [hgroups, hentries, hs1, and_assoc]
    simp only [mem_some_iff, forall_eq']

/-- **How often items drop.**  For every template, mode and sequence of draws with which it is rolled
to its end: no item is in the loot more often than it may drop and every drop has a mode in common
with the one asked for, if and only if the tests that are missing would find nothing at any turn. -/
theorem drops_limited_iff (w : World) (dice : ℕ → Draw) (references : LootTemplateMap) (rate : Bool)
    (lootMode : UInt16) (fuel : ℕ) (t : LootTemplate) (groupId : ℕ) (s : Fill)
    (h : t.process w dice references rate lootMode fuel groupId {} = some s) :
    (Limited w s.loot ∧ ∀ d ∈ s.drops, d.item.lootmode &&& lootMode ≠ 0) ↔
      t.Spared w dice lootMode references rate fuel groupId {} := by
  have hnone : Right w lootMode {} := ⟨fun _ _ _ => Nat.zero_le _, fun _ hd => nomatch hd⟩
  exact (right_process h).trans (and_iff_right hnone)

/-- Item `1` can be equipped. -/
def oneSword : World :=
  { getItemTemplate := fun itemid => if itemid = 1 then some { inventoryType := 13 } else none }

/-- A template with a row for item `1`, always taken, and one row as a group. -/
def swordTwice : LootTemplate :=
  ⟨[⟨1, 100, 1, 1, 0, false, 1, 0⟩], [⟨[⟨1, 100, 1, 1, 1, false, 1, 0⟩], []⟩]⟩

/-- The group does not drop what the row has dropped. -/
theorem swordTwice_limited :
    let s := (swordTwice.process oneSword (fun _ => lowest) [] true 1 1 0 {}).getD {}
    s.drops.length = 1 ∧ Limited oneSword s.loot ∧ ∀ d ∈ s.drops, d.item.lootmode &&& 1 ≠ 0 := by
  intro s
  have hs : swordTwice.process oneSword (fun _ => lowest) [] true 1 1 0 {} = some s := by
    decide +kernel
  have hspared : swordTwice.Spared oneSword (fun _ => lowest) 1 [] true 1 0 {} := by
    refine ⟨⟨fun _ _ => ⟨by decide, .inr (by decide)⟩, fun _ _ => trivial⟩, fun s' hs' => ?_⟩
    -- the item of the group is a duplicate, and there is no attempt left
    cases hs'
    exact ⟨trivial, trivial⟩
  exact ⟨by decide +kernel,
    (drops_limited_iff oneSword (fun _ => lowest) [] true 1 1 swordTwice 0 s hs).mpr hspared⟩

/-- Two rows of a template drop a sword each, and a row without a mode drops in every mode. -/
theorem sword_drops_twice :
    let rows : List Row := [⟨7, 1, 100, 1, 0, 1, 1⟩, ⟨7, 1, 100, 0, 0, 1, 1⟩]
    let store := loadLootTable oneSword rows
    let t := (store.lookup 7).getD ⟨[], []⟩
    let s := (t.process oneSword (fun _ => lowest) [] true 1 1 0 {}).getD {}
    t.entries.length = 2 ∧ copies s.loot 1 = 2 ∧
      (oneSword.getItemTemplate 1).map ItemTemplate.inventoryType = some 13 ∧
        ∃ d ∈ s.drops, d.item.lootmode &&& 1 = 0 := by
  decide +kernel

end ZerosCore.Loots.Templates
