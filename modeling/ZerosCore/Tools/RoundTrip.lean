/-
# From a dump to a load

When a dump and its load keep a character (`faithful_iff`).  They do just when the order of the
tables does no harm (no gifts for the character's items, and no item in its mails that is not in
its inventory), no query comes back empty before one that would find rows, the rows of the pets
name no pet again after another one, and nothing that is not renamed names a renamed item.
-/

import ZerosCore.Tools.Reader

namespace ZerosCore.PlayerDump

open Lib List Option Table Renames

variable {env : LoadEnv} {D : Database} {guid : ℕ} {dump loaded ls ls' : List Line}
  {st st' : LoadState} {t : Table}

/-! ### Lines and their pairs -/

theorem mem_allPairs {pairs : Line → Line → List (ℕ × ℕ)} {p : ℕ × ℕ} :
    p ∈ allPairs pairs ls ls' ↔ ∃ q ∈ ls.zip ls', p ∈ pairs q.1 q.2 := by
  unfold allPairs
  rw [← map_uncurry_zip_eq_zipWith, mem_flatten]
  constructor
  · rintro ⟨ps, hps, hp⟩
    obtain ⟨q, hq, rfl⟩ := mem_map.1 hps
    exact ⟨q, hq, hp⟩
  rintro ⟨q, hq, hp⟩
  exact ⟨_, mem_map.2 ⟨q, hq, rfl⟩, hp⟩

variable {R : Line → Line → Prop}

theorem exists_zip_of_mem (h : Forall₂ R ls ls') {l : Line}
    (hl : l ∈ ls) : ∃ l', (l, l') ∈ ls.zip ls' := by
  induction h with
  | nil => cases hl
  | @cons a b ls ls' _ _ ih =>
    rcases mem_cons.1 hl with rfl | hl
    · exact ⟨b, mem_cons_self⟩
    obtain ⟨l', hl'⟩ := ih hl
    exact ⟨l', mem_cons_of_mem _ hl'⟩

theorem exists_zip_of_mem_right (h : Forall₂ R ls ls') {l' : Line}
    (hl : l' ∈ ls') : ∃ l, (l, l') ∈ ls.zip ls' := by
  induction h with
  | nil => cases hl
  | @cons a b ls ls' _ _ ih =>
    rcases mem_cons.1 hl with rfl | hl
    · exact ⟨a, mem_cons_self⟩
    obtain ⟨l, hl'⟩ := ih hl
    exact ⟨l, mem_cons_of_mem _ hl'⟩

theorem Renames.of_zip (h : Forall₂ (Renames st) ls ls') {q : Line × Line}
    (hq : q ∈ ls.zip ls') : Renames st q.1 q.2 :=
  (forall₂_iff_zip.1 h).2 hq

/-! ### What a load leaves -/

/-- The tables whose columns of items a load leaves as they are. -/
def Table.KeepsItems (t : Table) : Prop := t = .characterEquipmentsets ∨ t = .characterAura

variable {n : ℕ}

theorem Table.renames_or_keeps (h : n ∈ t.itemColumns) : t.type.RenamesItems ∨ t.KeepsItems := by
  cases t <;> first
    | exact absurd h not_mem_nil
    | exact .inl (.inl rfl)
    | exact .inl (.inr (.inl rfl))
    | exact .inl (.inr (.inr (.inl rfl)))
    | exact .inl (.inr (.inr (.inr rfl)))
    | exact .inr (.inl rfl)
    | exact .inr (.inr rfl)

theorem Table.lowGuid_of_renames (h : t.type.RenamesItems) (v : ℕ) : t.lowGuid v = v := by
  have hne : t ≠ .characterAura := by
    rintro rfl
    simp [DumpTableType.RenamesItems, type] at h
  exact if_neg hne

theorem Table.notMem_changed_of_keeps (h : t.KeepsItems) (hn : n ∈ t.itemColumns) :
    n ∉ t.type.changedColumns := by
  rcases h with rfl | rfl
  · have hle : 6 ≤ n := by
      obtain ⟨i, -, rfl⟩ := mem_range'.1 hn
      omega
    simp only [type, DumpTableType.changedColumns, mem_cons, not_mem_nil, or_false, not_or]
    omega
  obtain rfl := mem_singleton.1 hn
  decide

def renamedNames (ls : List Line) (g : ℕ) : Prop :=
  ∃ l ∈ ls, l.table.type.RenamesItems ∧ ∃ n ∈ l.itemRefs, l.row n = g

/-- **The new names of the items are one injective function** just when the tables that are left
as they are name no renamed item. -/
theorem items_oneToOne_iff (h : Forall₂ (Renames st) ls ls')
    (hnum : Numbering.Numbered env.hiItemGuid st.items)
    (hfree : ∀ l ∈ ls, ∀ n ∈ l.itemRefs, l.table.lowGuid (l.row n) < env.hiItemGuid) :
    Numbering.OneToOne (allPairs itemPairs ls ls') ↔
      ∀ l ∈ ls, l.table.KeepsItems → ∀ n ∈ l.itemRefs,
        ¬ renamedNames ls (l.table.lowGuid (l.row n)) := by
  have hkept : ∀ q ∈ ls.zip ls', q.1.table.KeepsItems → ∀ n ∈ q.1.itemRefs,
      q.2.row n = q.1.row n := fun q hq ht n hn =>
    (of_zip h hq).same n (notMem_changed_of_keeps ht (mem_filter.1 hn).1)
  have hren : ∀ q ∈ ls.zip ls', q.1.table.type.RenamesItems → ∀ n ∈ q.1.itemRefs,
      (q.1.row n, q.2.row n) ∈ st.items := fun q hq ht n hn => (of_zip h hq).items ht n hn
  have hmem : ∀ q ∈ ls.zip ls', q.1 ∈ ls := fun q hq => (of_mem_zip hq).1
  constructor
  · intro hone l hl ht n hn
    rintro ⟨l2, hl2, ht2, m, hm, heq⟩
    obtain ⟨l', hq⟩ := exists_zip_of_mem h hl
    obtain ⟨l2', hq2⟩ := exists_zip_of_mem h hl2
    have hp : (l.table.lowGuid (l.row n), l.table.lowGuid (l'.row n)) ∈ allPairs itemPairs ls ls' :=
      mem_allPairs.2 ⟨(l, l'), hq, mem_map.2 ⟨n, hn, rfl⟩⟩
    have hp2 : (l2.table.lowGuid (l2.row m), l2.table.lowGuid (l2'.row m)) ∈
        allPairs itemPairs ls ls' :=
      mem_allPairs.2 ⟨(l2, l2'), hq2, mem_map.2 ⟨m, hm, rfl⟩⟩
    rw [lowGuid_of_renames ht2, lowGuid_of_renames ht2] at hp2
    have hnew := (hone _ hp _ hp2).1 heq.symm
    have hle := hnum.le_of_mem (hren _ hq2 ht2 m hm)
    have hlt := hfree l hl n hn
    rw [← hkept _ hq ht n hn] at hlt
    simp only at hnew hle hlt
    omega
  intro hsep p hp q hq
  -- a pair is one of the map, or an old name left as it is
  have hcases : ∀ p ∈ allPairs itemPairs ls ls', (p ∈ st.items ∧ renamedNames ls p.1) ∨
      (p.1 = p.2 ∧ p.1 < env.hiItemGuid ∧ ¬ renamedNames ls p.1) := by
    intro p hp
    obtain ⟨x, hx, hp⟩ := mem_allPairs.1 hp
    obtain ⟨n, hn, rfl⟩ := mem_map.1 hp
    rcases renames_or_keeps (mem_filter.1 hn).1 with ht | ht
    · rw [lowGuid_of_renames ht, lowGuid_of_renames ht]
      exact .inl ⟨hren x hx ht n hn, x.1, hmem x hx, ht, n, hn, rfl⟩
    simp only [hkept x hx ht n hn]
    exact .inr ⟨trivial, hfree x.1 (hmem x hx) n hn, hsep x.1 (hmem x hx) ht n hn⟩
  rcases hcases p hp with ⟨hpm, hpn⟩ | ⟨hpe, hpl, hpn⟩ <;>
    rcases hcases q hq with ⟨hqm, hqn⟩ | ⟨hqe, hql, hqn⟩
  · exact hnum.oneToOne p hpm q hqm
  · refine iff_of_false (fun heq => hqn (heq ▸ hpn)) fun heq => ?_
    have hle := hnum.le_of_mem hpm
    omega
  · refine iff_of_false (fun heq => hpn (heq ▸ hqn)) fun heq => ?_
    have hle := hnum.le_of_mem hqm
    omega
  · rw [hpe, hqe]

theorem mails_oneToOne (h : Forall₂ (Renames st) ls ls')
    (hnum : Numbering.Numbered env.mailId st.mails) :
    Numbering.OneToOne (allPairs mailPairs ls ls') := by
  refine hnum.oneToOne.of_subset fun p hp => ?_
  obtain ⟨q, hq, hp⟩ := mem_allPairs.1 hp
  obtain ⟨n, hn, rfl⟩ := mem_map.1 hp
  exact (of_zip h hq).mails n hn

theorem Table.renames_of_usesItems (h : t.UsesItems) : t.type.RenamesItems := by
  rcases h with rfl | rfl | rfl
  · exact .inl rfl
  · exact .inr (.inl rfl)
  · exact .inr (.inr (.inl rfl))

/-- **The items of the loaded rows have their instances** just when those of the dumped rows
do. -/
theorem instances_iff (h : Forall₂ (Renames st) ls ls')
    (hnum : Numbering.Numbered env.hiItemGuid st.items)
    (hinst : ∀ i ∈ ls, i.table = .itemInstance → i.row 0 ≠ 0) :
    (∀ p ∈ ls.zip ls', p.1.table.UsesItems → ∀ n ∈ p.1.itemRefs,
      ∃ i ∈ ls', i.table = .itemInstance ∧ i.row 0 = p.2.row n) ↔
    ∀ l ∈ ls, l.table.UsesItems → ∀ n ∈ l.itemRefs,
      ∃ i ∈ ls, i.table = .itemInstance ∧ i.row 0 = l.row n := by
  -- an instance has the new name of its guid
  have hnew : ∀ q ∈ ls.zip ls', q.1.table = .itemInstance → (q.1.row 0, q.2.row 0) ∈ st.items := by
    intro q hq ht
    refine (of_zip h hq).items (by rw [ht]; exact .inr (.inr (.inr rfl))) 0 ?_
    have hne := hinst q.1 (of_mem_zip hq).1 ht
    exact mem_filter.2 ⟨by rw [ht]; exact mem_cons_self, decide_eq_true hne⟩
  have huse : ∀ q ∈ ls.zip ls', q.1.table.UsesItems → ∀ n ∈ q.1.itemRefs,
      (q.1.row n, q.2.row n) ∈ st.items := fun q hq ht n hn =>
    (of_zip h hq).items (renames_of_usesItems ht) n hn
  constructor
  · intro hload l hl ht n hn
    obtain ⟨l', hq⟩ := exists_zip_of_mem h hl
    obtain ⟨i', hi', hti, hrow⟩ := hload _ hq ht n hn
    obtain ⟨i, hqi⟩ := exists_zip_of_mem_right h hi'
    have hti' : i.table = .itemInstance := (of_zip h hqi).table.symm.trans hti
    exact ⟨i, (of_mem_zip hqi).1, hti',
      (hnum.oneToOne _ (hnew _ hqi hti') _ (huse _ hq ht n hn)).2 hrow⟩
  intro hdump q hq ht n hn
  obtain ⟨i, hi, hti, hrow⟩ := hdump q.1 (of_mem_zip hq).1 ht n hn
  obtain ⟨i', hqi⟩ := exists_zip_of_mem h hi
  exact ⟨i', (of_mem_zip hqi).2, (of_zip h hqi).table.trans hti,
    (hnum.oneToOne _ (hnew _ hqi hti) _ (huse q hq ht n hn)).1 hrow⟩

theorem owner_loadLines (h : loadLines env st ls = some (st', ls')) :
    Forall₂ (fun l l' => l.table.type = .pet → l'.row 2 = env.guid) ls ls' := by
  induction ls generalizing st ls' with
  | nil =>
    obtain ⟨-, rfl⟩ := Prod.mk.inj (some.inj h)
    exact .nil
  | cons l ls ih =>
    obtain ⟨-, st1, r', ls1, hrow, hrest, rfl⟩ := loadLines_cons h
    refine .cons (fun ht => ?_) (ih hrest)
    obtain ⟨-, hr'⟩ := Prod.mk.inj (loadRow_pet hrow ht)
    simp only [hr']
    exact changenth_self

theorem Table.changed_subset_ids (h : t ≠ .characterPetDeclinedname) :
    t.type.changedColumns ⊆ t.idColumns := by
  cases t <;> first
    | exact absurd rfl h
    | exact Subset.refl _
    | exact subset_append_left _ _

/-- **The lines are copies** just when the text that the owner of a pet is written over is that
number already. -/
theorem copies_iff (h : Forall₂ (Renames st) ls ls')
    (howner : Forall₂ (fun l l' => l.table.type = .pet → l'.row 2 = env.guid) ls ls') :
    Forall₂ Copies ls ls' ↔ ∀ l ∈ ls, l.table = .characterPetDeclinedname → l.row 2 = env.guid := by
  rw [forall₂_iff_zip]
  constructor
  · rintro ⟨-, hcopy⟩ l hl ht
    obtain ⟨l', hq⟩ := exists_zip_of_mem h hl
    have hsame := (hcopy hq).2 2 (by rw [ht]; decide)
    rw [← hsame]
    exact (forall₂_iff_zip.1 howner).2 hq (by rw [ht]; rfl)
  intro hdecl
  refine ⟨h.length_eq, fun {l l'} hq => ⟨(of_zip h hq).table, fun n hn => ?_⟩⟩
  have hren := of_zip h hq
  by_cases ht : l.table = .characterPetDeclinedname
  · by_cases hn2 : n = 2
    · subst hn2
      rw [hdecl l (of_mem_zip hq).1 ht]
      exact (forall₂_iff_zip.1 howner).2 hq (by rw [ht]; rfl)
    refine hren.same n ?_
    rw [ht] at hn ⊢
    simp only [idColumns, type, DumpTableType.changedColumns, mem_cons,
      not_mem_nil, or_false, not_or] at hn ⊢
    exact ⟨hn.1, hn2⟩
  · exact hren.same n fun hc => hn (changed_subset_ids ht hc)

theorem short_of_loadLines {p : LoadState × List Line} (h : loadLines env st ls = some p) :
    ∀ l ∈ ls, env.lineLength l < lineBuffer := by
  induction ls generalizing st p with
  | nil => simp
  | cons l ls ih =>
    obtain ⟨st', ls'⟩ := p
    obtain ⟨hshort, st1, r', ls1, -, hrest, -⟩ := loadLines_cons h
    exact forall_mem_cons.2 ⟨hshort, ih hrest⟩

/-! ### The dump -/

variable {r : Row}

theorem mem_dump (h : getDump D guid = some dump) :
    ⟨t, r⟩ ∈ dump ↔ r ∈ dumpRows D guid (setsBefore D guid t) t := by
  rw [← rows_of_dump h t]
  constructor
  · intro hmem
    exact mem_map.2 ⟨⟨t, r⟩, mem_filter.2 ⟨hmem, decide_eq_true rfl⟩, rfl⟩
  intro hmem
  obtain ⟨l, hl, rfl⟩ := mem_map.1 hmem
  obtain ⟨hdump, ht⟩ := mem_filter.1 hl
  obtain rfl := of_decide_eq_true ht
  exact hdump

def petTables : List Table := [.petAura, .petSpell, .petSpellCooldown]

def tablesBeforePets : List Table := dumpTables.take 26

theorem petIds_append (ls1 ls2 : List Line) : petIds (ls1 ++ ls2) = petIds ls1 ++ petIds ls2 := by
  simp [petIds]

theorem petIds_map (t : Table) (rows : List Row) :
    petIds (rows.map (Line.mk t)) = if t.type = .pet then rows.map fun r => r 0 else [] := by
  induction rows with
  | nil => simp [petIds]
  | cons r rows ih =>
    rw [map_cons]
    unfold petIds at ih ⊢
    split_ifs with ht
    · rw [if_pos ht] at ih
      simp [ht, ih]
    · simp [ht]

theorem petIds_dumpFrom (s : Guids) (ts : List Table) : petIds (dumpFrom D guid s ts) =
      (ts.filter fun t => t.type = .pet).flatMap fun t => (ownRows D guid t).map fun r => r 0 := by
  induction ts generalizing s with
  | nil => rfl
  | cons t ts ih =>
    rw [dumpFrom, petIds_append, petIds_map, ih]
    split_ifs with ht
    · have hguids : s.guids t = none := by
        unfold Guids.guids
        rw [ht]
      rw [dumpRows_of_guids_eq_none hguids, filter_cons_of_pos (by simpa using ht),
        flatMap_cons]
    · rw [filter_cons_of_neg (by simpa using ht), nil_append]

/-- The pets of the character, in the order of their rows and of the rows of their declined
names. -/
def petRows (D : Database) (guid : ℕ) : List ℕ :=
  (ownRows D guid .characterPet).map (fun r => r 0) ++
    (ownRows D guid .characterPetDeclinedname).map fun r => r 0

variable {g : ℕ}

theorem mem_petRows_of_mem_ownPets (h : g ∈ ownPets D guid) : g ∈ petRows D guid := by
  unfold ownPets at h
  rcases mem_storeGuids.1 h with h | ⟨-, r, hr, rfl⟩
  · rcases mem_storeGuids.1 h with h | ⟨-, r, hr, rfl⟩
    · exact absurd h not_mem_nil
    · exact mem_append_left _ (mem_map.2 ⟨r, hr, rfl⟩)
  · exact mem_append_right _ (mem_map.2 ⟨r, hr, rfl⟩)

/-- **A dump is the lines with the pets, then the lines of the tables of pets**, whose pets are
among them. -/
theorem dump_split (h : getDump D guid = some dump) :
    ∃ dump1 dump2, dump = dump1 ++ dump2 ∧ petIds dump1 = petRows D guid ∧
      (∀ l ∈ dump1, l.table.type ≠ .petTable) ∧
      ∀ l ∈ dump2, l.table.type = .petTable ∧ l.row 0 ∈ petRows D guid := by
  have hdump := eq_dumpFrom h
  have hsplit : dumpTables = tablesBeforePets ++ petTables := rfl
  rw [hsplit, dumpFrom_append] at hdump
  refine ⟨_, _, hdump, ?_, ?_, ?_⟩
  · rw [petIds_dumpFrom]
    have hfilter : tablesBeforePets.filter (·.type = .pet) =
        [.characterPet, .characterPetDeclinedname] := rfl
    rw [hfilter]
    simp [petRows]
  · intro l hl
    have hmem := table_mem_of_mem_dumpFrom hl
    exact (by decide : ∀ t ∈ tablesBeforePets, t.type ≠ .petTable) _ hmem
  intro l hl
  have ht : l.table.type = .petTable :=
    (by decide : ∀ t ∈ petTables, t.type = .petTable) _ (table_mem_of_mem_dumpFrom hl)
  refine ⟨ht, mem_petRows_of_mem_ownPets ?_⟩
  have hl' : (⟨l.table, l.row⟩ : Line) ∈ dump := by
    rw [hdump]
    exact mem_append_right _ hl
  have hrow := (mem_dump h).1 hl'
  have hguids : ∀ t : Table, t.type = .petTable →
      (setsBefore D guid t).guids t = some (ownPets D guid) ∧ t.field.2 = 0 := by
    intro t ht
    cases t <;> simp only [type, reduceCtorEq] at ht <;> exact ⟨rfl, rfl⟩
  obtain ⟨hset, hfield⟩ := hguids l.table ht
  unfold dumpRows at hrow
  rw [hset] at hrow
  have hkey := of_decide_eq_true (mem_filter.1 (mem_rowsOf_of_dumpParts hrow)).2
  rwa [hfield] at hkey

/-- **The new names of the pets are one injective function** just when no pet is named again
after another. -/
theorem pets_oneToOne_iff (h : getDump D guid = some dump) (hload : loadDump env dump = some loaded) :
    Numbering.OneToOne (allPairs petPairs dump loaded) ↔ Numbering.Grouped (petRows D guid) := by
  obtain ⟨dump1, dump2, rfl, hids, hbefore, hafter⟩ := dump_split h
  unfold loadDump at hload
  rw [loadLines_append] at hload
  obtain ⟨⟨st', ls⟩, hbind, rfl⟩ := map_eq_some_iff.1 hload
  obtain ⟨⟨st1, ls1⟩, h1, hrest⟩ := bind_eq_some_iff.1 hbind
  obtain ⟨⟨st2, ls2⟩, h2, heq⟩ := map_eq_some_iff.1 hrest
  obtain ⟨rfl, rfl⟩ := Prod.mk.inj heq
  obtain ⟨hpairs, hsub, -⟩ := petPairs_loadLines h1 hbefore
  have hpet2 : ∀ l ∈ dump2, l.table.type ≠ .pet := fun l hl ht => by
    rw [(hafter l hl).1] at ht
    cases ht
  have hren1 := (loads_loadLines h1).2.2
  have hren2 := (loads_loadLines h2).2.2
  have hsub2 : allPairs petPairs dump2 ls2 ⊆ allPairs petPairs dump1 ls1 := by
    have hmap := petPairs_subset hren2 hpet2
    rw [petids_loadLines h2 hpet2] at hmap
    exact Subset.trans hmap (by simpa using hsub)
  have happend : allPairs petPairs (dump1 ++ dump2) (ls1 ++ ls2) =
      allPairs petPairs dump1 ls1 ++ allPairs petPairs dump2 ls2 := by
    unfold allPairs
    rw [zipWith_append hren1.length_eq, flatten_append]
  have hone : Numbering.OneToOne (allPairs petPairs dump1 ls1) ↔
      Numbering.Grouped (petRows D guid) := by
    rw [hpairs, hids]
    exact Numbering.oneToOne_numberRuns (Nat.le_refl _) _
  rw [happend, ← hone]
  constructor
  · exact fun hall => hall.of_subset (subset_append_left _ _)
  · exact fun hfirst => hfirst.of_subset (append_subset.2 ⟨Subset.refl _, hsub2⟩)

theorem exists_loadDump (h : getDump D guid = some dump)
    (hshort : ∀ l ∈ dump, env.lineLength l < lineBuffer) : ∃ loaded, loadDump env dump = some loaded := by
  obtain ⟨dump1, dump2, rfl, hids, hbefore, hafter⟩ := dump_split h
  unfold loadDump
  have hfirst : ∃ p, loadLines env ⟨[], [], [], env.hiPetNumber + 1, none, env.hiPetNumber + 1,
      env.equipmentSetGuid⟩ dump1 = some p :=
    exists_loadLines (fun l hl => hshort l (mem_append_left _ hl))
      fun l hl ht => absurd ht (hbefore l hl)
  obtain ⟨⟨st1, ls1⟩, h1⟩ := hfirst
  obtain ⟨-, -, hnames⟩ := petPairs_loadLines h1 hbefore
  obtain ⟨p, h2⟩ := exists_loadLines (fun l hl => hshort l (mem_append_right _ hl))
    fun l hl _ => hnames (l.row 0) (by rw [hids]; exact (hafter l hl).2)
  rw [loadLines_append, h1, bind_some, h2]
  exact ⟨_, rfl⟩

/-! ### The round trip -/

/-- **When a dump keeps a character.** -/
structure Complete (env : LoadEnv) (D : Database) (guid : ℕ) : Prop where
  /-- the items and bags of the inventory are items of the inventory with an instance -/
  inventory : ∀ r ∈ ownRows D guid .characterInventory, ∀ n ∈ [1, 3], r n ≠ 0 →
    r n ∈ inventoryItems D guid ∧ ∃ i ∈ D .itemInstance, i 0 = r n
  /-- so are those of the mails -/
  mailItems : ∀ r ∈ rowsOf D .mailItems (ownMails D guid), r 1 ≠ 0 →
    r 1 ∈ inventoryItems D guid ∧ ∃ i ∈ D .itemInstance, i 0 = r 1
  /-- none of them is a gift -/
  gifts : ∀ r ∈ D .characterGifts, r 1 ∉ inventoryItems D guid
  /-- no query before the last one that finds rows comes back empty -/
  instanceParts : Gapless D .itemInstance (Table.parts .itemInstance (inventoryItems D guid))
  mailParts : Gapless D .mailItems (Table.parts .mailItems (ownMails D guid))
  petParts : ∀ t : Table, t.type = .petTable → Gapless D t (t.parts (ownPets D guid))
  /-- no pet is named again after another one -/
  pets : Numbering.Grouped (petRows D guid)
  /-- no declined name is written over -/
  declined : ∀ r ∈ ownRows D guid .characterPetDeclinedname, r 2 = env.guid
  /-- no equipment set and no aura names an item of the inventory -/
  kept : ∀ t : Table, t.KeepsItems → ∀ r ∈ ownRows D guid t, ∀ n ∈ t.itemColumns, r n ≠ 0 →
    t.lowGuid (r n) ∉ inventoryItems D guid
  /-- no line is too long for the buffer -/
  short : ∀ t ∈ dumpTables, ∀ r ∈ belonging D guid t, env.lineLength ⟨t, r⟩ < lineBuffer

theorem mem_inventoryItems : g ∈ inventoryItems D guid ↔
      g ≠ 0 ∧ ∃ r ∈ ownRows D guid .characterInventory, r 3 = g := by
  unfold inventoryItems
  rw [mem_storeGuids]
  simp

theorem ownItems_eq (h : ∀ r ∈ rowsOf D .mailItems (ownMails D guid), r 1 ≠ 0 →
    r 1 ∈ inventoryItems D guid) : ownItems D guid = inventoryItems D guid :=
  storeGuids_eq_self h

theorem mem_dump_itemInstance (h : getDump D guid = some dump)
    (hr : ⟨.itemInstance, r⟩ ∈ dump) : r ∈ D .itemInstance ∧ r 0 ∈ inventoryItems D guid := by
  have hrow := mem_rowsOf_of_dumpParts ((mem_dump h).1 hr)
  obtain ⟨hmem, hkey⟩ := mem_filter.1 hrow
  exact ⟨hmem, of_decide_eq_true hkey⟩

theorem mem_dump_own (h : getDump D guid = some dump) (ht : ∀ s : Guids, s.guids t = none)
    : ⟨t, r⟩ ∈ dump ↔ r ∈ ownRows D guid t := by
  rw [mem_dump h, dumpRows_of_guids_eq_none (ht _)]

theorem renamedNames_iff (h : getDump D guid = some dump) (hc : ∀ r ∈
    ownRows D guid .characterInventory, ∀ n ∈ [1, 3], r n ≠ 0 → r n ∈ inventoryItems D guid)
    (hm : ∀ r ∈ rowsOf D .mailItems (ownMails D guid), r 1 ≠ 0 → r 1 ∈ inventoryItems D guid)
    : renamedNames dump g ↔ g ∈ inventoryItems D guid := by
  constructor
  · rintro ⟨⟨t, r⟩, hl, ht, n, hn, rfl⟩
    obtain ⟨hcol, hne⟩ := mem_filter.1 hn
    have hne' : r n ≠ 0 := of_decide_eq_true hne
    rcases ht with ht | ht | ht | ht
    · cases t <;> cases ht
      exact hc r ((mem_dump_own h fun _ => rfl).1 hl) n hcol hne'
    · cases t <;> cases ht
      rw [mem_dump h, dumpRows_gifts] at hl
      exact absurd hl not_mem_nil
    · cases t <;> cases ht
      obtain rfl := mem_singleton.1 hcol
      exact hm r (mem_rowsOf_of_dumpParts ((mem_dump h).1 hl)) hne'
    cases t <;> cases ht
    obtain rfl := mem_singleton.1 hcol
    exact (mem_dump_itemInstance h hl).2
  intro hg
  obtain ⟨hne, r, hr, rfl⟩ := mem_inventoryItems.1 hg
  refine ⟨⟨.characterInventory, r⟩, (mem_dump_own h fun _ => rfl).2 hr, .inl rfl, 3, ?_, rfl⟩
  exact mem_filter.2 ⟨mem_cons_of_mem _ mem_cons_self, decide_eq_true hne⟩

theorem exists_renames (hload : loadDump env dump = some loaded) :
    ∃ st, Forall₂ (Renames st) dump loaded ∧ Maps env st ∧
      Forall₂ (fun l l' => l.table.type = .pet → l'.row 2 = env.guid) dump loaded ∧
      ∀ l ∈ dump, env.lineLength l < lineBuffer := by
  unfold loadDump at hload
  obtain ⟨⟨st, ls⟩, hlines, rfl⟩ := map_eq_some_iff.1 hload
  obtain ⟨-, hmaps, hren⟩ := loads_loadLines hlines
  exact ⟨st, hren, hmaps ⟨Numbering.numbered_nil _, Numbering.numbered_nil _⟩,
    owner_loadLines hlines, short_of_loadLines hlines⟩

theorem itemInstance_ne_zero (h : getDump D guid = some dump) :
    ∀ i ∈ dump, i.table = .itemInstance → i.row 0 ≠ 0 := by
  rintro ⟨t, r⟩ hi rfl
  exact (mem_inventoryItems.1 (mem_dump_itemInstance h hi).2).1

theorem exists_dump_of_belonging (hrows : ∀ t ∈ dumpTables,
    ((dump.filter fun l => l.table = t).map Line.row).Perm (belonging D guid t))
    (ht : t ∈ dumpTables) (hr : r ∈ belonging D guid t) : ⟨t, r⟩ ∈ dump := by
  obtain ⟨l, hl, rfl⟩ := mem_map.1 ((hrows t ht).mem_iff.2 hr)
  obtain ⟨hdump, heq⟩ := mem_filter.1 hl
  obtain rfl := of_decide_eq_true heq
  exact hdump

theorem Faithful.complete (h : getDump D guid = some dump)
    (hfree : ∀ l ∈ dump, ∀ n ∈ l.itemRefs, l.table.lowGuid (l.row n) < env.hiItemGuid)
    (hload : loadDump env dump = some loaded) (hf : Faithful D guid dump loaded) :
    Complete env D guid := by
  obtain ⟨st, hren, hmaps, howner, hshort⟩ := exists_renames hload
  obtain ⟨hgifts, hinst, hmail, hpet⟩ := (rows_iff h).1 hf.rows
  have hused := (instances_iff hren hmaps.items (itemInstance_ne_zero h)).1 hf.instances
  have hkey : ∀ l ∈ dump, l.table.UsesItems → ∀ n ∈ l.itemRefs,
      l.row n ∈ inventoryItems D guid ∧ ∃ i ∈ D .itemInstance, i 0 = l.row n := by
    intro l hl ht n hn
    obtain ⟨⟨t, r⟩, hi, rfl, hrow⟩ := hused l hl ht n hn
    obtain ⟨hD, hg⟩ := mem_dump_itemInstance h hi
    exact ⟨hrow ▸ hg, r, hD, hrow⟩
  have hinventory : ∀ r ∈ ownRows D guid .characterInventory, ∀ n ∈ [1, 3], r n ≠ 0 →
      r n ∈ inventoryItems D guid ∧ ∃ i ∈ D .itemInstance, i 0 = r n := fun r hr n hn hne =>
    hkey ⟨.characterInventory, r⟩ ((mem_dump_own h fun _ => rfl).2 hr) (.inl rfl) n
      (mem_filter.2 ⟨hn, decide_eq_true hne⟩)
  have hmailItems : ∀ r ∈ rowsOf D .mailItems (ownMails D guid), r 1 ≠ 0 →
      r 1 ∈ inventoryItems D guid ∧ ∃ i ∈ D .itemInstance, i 0 = r 1 := by
    intro r hr hne
    have hdump : ⟨.mailItems, r⟩ ∈ dump :=
      (mem_dump h).2 (((dumpParts_parts_perm nodup_ownMails).2 hmail).mem_iff.2 hr)
    exact hkey ⟨.mailItems, r⟩ hdump (.inr (.inr rfl)) 1
      (mem_filter.2 ⟨mem_cons_self, decide_eq_true hne⟩)
  have hown := ownItems_eq fun r hr hne => (hmailItems r hr hne).1
  rw [hown] at hgifts hinst
  refine ⟨hinventory, hmailItems, fun r hr hg => ?_, (dumpParts_parts_perm nodup_inventoryItems).1 hinst,
    hmail, hpet, (pets_oneToOne_iff h hload).1 hf.pets, fun r hr => ?_, fun t ht r hr n hn hne => ?_,
    fun t ht r hr => hshort _ (exists_dump_of_belonging hf.rows ht hr)⟩
  · have hmem : r ∈ rowsOf D .characterGifts (inventoryItems D guid) :=
      mem_filter.2 ⟨hr, decide_eq_true hg⟩
    rw [hgifts] at hmem
    exact not_mem_nil hmem
  · exact (copies_iff hren howner).1 hf.copies ⟨.characterPetDeclinedname, r⟩
      ((mem_dump_own h fun _ => rfl).2 hr) rfl
  have hdump : ⟨t, r⟩ ∈ dump := by
    refine (mem_dump_own h fun s => ?_).2 hr
    rcases ht with rfl | rfl <;> rfl
  have hnot := (items_oneToOne_iff hren hmaps.items hfree).1 hf.items ⟨t, r⟩ hdump ht n
    (mem_filter.2 ⟨hn, decide_eq_true hne⟩)
  rwa [renamedNames_iff h (fun r hr n hn hne => (hinventory r hr n hn hne).1)
    fun r hr hne => (hmailItems r hr hne).1] at hnot

theorem Complete.faithful (h : getDump D guid = some dump)
    (hfree : ∀ l ∈ dump, ∀ n ∈ l.itemRefs, l.table.lowGuid (l.row n) < env.hiItemGuid)
    (hc : Complete env D guid) :
    ∃ loaded, loadDump env dump = some loaded ∧ Faithful D guid dump loaded := by
  have hown := ownItems_eq fun r hr hne => (hc.mailItems r hr hne).1
  have hrows := (rows_iff h).2 ⟨by
      rw [hown, rowsOf, filter_eq_nil_iff]
      intro r hr hg
      exact hc.gifts r hr (of_decide_eq_true hg),
    by rw [hown]; exact (dumpParts_parts_perm nodup_inventoryItems).2 hc.instanceParts,
    hc.mailParts, hc.petParts⟩
  have hshort : ∀ l ∈ dump, env.lineLength l < lineBuffer := by
    rintro ⟨t, r⟩ hl
    have ht : t ∈ dumpTables := by
      rw [eq_dumpFrom h] at hl
      exact table_mem_of_mem_dumpFrom hl
    refine hc.short t ht r ((hrows t ht).mem_iff.1 ?_)
    exact mem_map.2 ⟨⟨t, r⟩, mem_filter.2 ⟨hl, decide_eq_true rfl⟩, rfl⟩
  obtain ⟨loaded, hload⟩ := exists_loadDump h hshort
  obtain ⟨st, hren, hmaps, howner, -⟩ := exists_renames hload
  have hnames : ∀ g, renamedNames dump g ↔ g ∈ inventoryItems D guid := fun g =>
    renamedNames_iff h (fun r hr n hn hne => (hc.inventory r hr n hn hne).1)
      fun r hr hne => (hc.mailItems r hr hne).1
  -- a row of the inventory or of the mails names items whose instances are dumped
  have hinst : ∀ i ∈ D .itemInstance, i 0 ∈ inventoryItems D guid → ⟨.itemInstance, i⟩ ∈ dump := by
    intro i hi hg
    refine exists_dump_of_belonging hrows (by decide) ?_
    have hmem : i ∈ rowsOf D .itemInstance (ownItems D guid) := by
      rw [hown]
      exact mem_filter.2 ⟨hi, decide_eq_true hg⟩
    exact hmem
  have hused : ∀ l ∈ dump, l.table.UsesItems → ∀ n ∈ l.itemRefs,
      ∃ i ∈ dump, i.table = .itemInstance ∧ i.row 0 = l.row n := by
    rintro ⟨t, r⟩ hl ht n hn
    obtain ⟨hcol, hne⟩ := mem_filter.1 hn
    have hne' : r n ≠ 0 := of_decide_eq_true hne
    have hfound : r n ∈ inventoryItems D guid ∧ ∃ i ∈ D .itemInstance, i 0 = r n := by
      rcases ht with rfl | rfl | rfl
      · exact hc.inventory r ((mem_dump_own h fun _ => rfl).1 hl) n hcol hne'
      · rw [mem_dump h, dumpRows_gifts] at hl
        exact absurd hl not_mem_nil
      obtain rfl := mem_singleton.1 hcol
      exact hc.mailItems r (mem_rowsOf_of_dumpParts ((mem_dump h).1 hl)) hne'
    obtain ⟨hg, i, hi, hrow⟩ := hfound
    exact ⟨⟨.itemInstance, i⟩, hinst i hi (hrow ▸ hg), rfl, hrow⟩
  refine ⟨loaded, hload, (instances_iff hren hmaps.items (itemInstance_ne_zero h)).2 hused, hrows,
    (copies_iff hren howner).2 ?_, (items_oneToOne_iff hren hmaps.items hfree).2 ?_,
    mails_oneToOne hren hmaps.mails, (pets_oneToOne_iff h hload).2 hc.pets⟩
  · rintro ⟨t, r⟩ hl rfl
    exact hc.declined r ((mem_dump_own h fun _ => rfl).1 hl)
  rintro ⟨t, r⟩ hl ht n hn
  obtain ⟨hcol, hne⟩ := mem_filter.1 hn
  rw [hnames]
  refine hc.kept t ht r ((mem_dump_own h fun s => ?_).1 hl) n hcol (of_decide_eq_true hne)
  rcases ht with rfl | rfl <;> rfl

/-- **A dump and its load keep the character just when the dump is complete**, with new guids of
items that are above all the dump names. -/
theorem faithful_iff {env : LoadEnv} {D : Database} {guid : ℕ} {dump : List Line}
    (h : getDump D guid = some dump)
    (hfree : ∀ l ∈ dump, ∀ n ∈ l.itemRefs, l.table.lowGuid (l.row n) < env.hiItemGuid) :
    (∃ loaded, loadDump env dump = some loaded ∧ Faithful D guid dump loaded) ↔
      Complete env D guid :=
  ⟨fun ⟨_, hload, hf⟩ => hf.complete h hfree hload, fun hc => hc.faithful h hfree⟩

def row (columns : List ℕ) : Row := fun n => columns.getD n 0

/-- A character with an item in a bag, a mail and a pet. -/
def keptDb : Database
  | .characters => [row [1, 3]]
  | .characterInventory => [row [1, 0, 19, 100], row [1, 100, 0, 101], row [2, 0, 19, 102]]
  | .characterPet => [row [20, 6, 1]]
  | .itemInstance => [row [100, 5, 1], row [101, 6, 1], row [102, 5, 2]]
  | .mail => [row [7, 0, 41, 0, 2, 1]]
  | .petSpell => [row [20, 8]]
  | _ => []

/-- The same character, with an item in the mail. -/
def mailedDb : Database
  | .mailItems => [row [7, 200, 1]]
  | .itemInstance => [row [100, 5, 1], row [101, 6, 1], row [200, 5, 1]]
  | t => keptDb t

def keptEnv : LoadEnv := ⟨500, 3, none, fun _ => false, 1000, 1000, 50, 9, fun _ => 100⟩

theorem getDump_keptDb : getDump keptDb 1 = some ((getDump keptDb 1).getD []) := by
  have hsome : (getDump keptDb 1).isSome := by decide +kernel
  obtain ⟨dump, hdump⟩ := isSome_iff_exists.1 hsome
  rw [hdump, getD_some]

theorem complete_keptDb : Complete keptEnv keptDb 1 where
  inventory := by decide +kernel
  mailItems := by decide +kernel
  gifts := by decide +kernel
  instanceParts := by decide +kernel
  mailParts := by decide +kernel
  petParts := by
    intro t ht
    cases t <;> simp only [type, reduceCtorEq] at ht <;> decide +kernel
  pets := by decide +kernel
  declined := by decide +kernel
  kept := by
    rintro t (rfl | rfl) <;> decide +kernel
  short := fun _ _ _ _ => (by decide : 100 < lineBuffer)

theorem faithful_iff_keptDb :
    ∃ loaded, loadDump keptEnv ((getDump keptDb 1).getD []) = some loaded ∧
      Faithful keptDb 1 ((getDump keptDb 1).getD []) loaded :=
  (faithful_iff getDump_keptDb (by decide +kernel)).2 complete_keptDb

/-- **An item in a mail is left behind.**  The instances are dumped before the mails are gone
through, so the row of the item in the mail is dumped, and the instance is not. -/
theorem mailed_item_left : getDump mailedDb 1 = some ((getDump mailedDb 1).getD []) ∧
    (∀ l ∈ (getDump mailedDb 1).getD [], ∀ n ∈ l.itemRefs,
      l.table.lowGuid (l.row n) < keptEnv.hiItemGuid) ∧
    ¬ ∃ loaded, loadDump keptEnv ((getDump mailedDb 1).getD []) = some loaded ∧
      Faithful mailedDb 1 ((getDump mailedDb 1).getD []) loaded := by
  have hsome : (getDump mailedDb 1).isSome := by decide +kernel
  obtain ⟨dump, hdump⟩ := isSome_iff_exists.1 hsome
  have hget : getDump mailedDb 1 = some ((getDump mailedDb 1).getD []) := by
    rw [hdump, getD_some]
  have hfree : ∀ l ∈ (getDump mailedDb 1).getD [], ∀ n ∈ l.itemRefs,
      l.table.lowGuid (l.row n) < keptEnv.hiItemGuid := by decide +kernel
  refine ⟨hget, hfree, ?_⟩
  rintro ⟨loaded, hload, hf⟩
  have hc := hf.complete hget hfree hload
  have hmail : row [7, 200, 1] ∈ rowsOf mailedDb .mailItems (ownMails mailedDb 1) :=
    mem_filter.2 ⟨mem_cons_self, by decide +kernel⟩
  exact absurd (hc.mailItems _ hmail (by decide)).1 (by decide +kernel)

end ZerosCore.PlayerDump
