/-
# Loading a dump

What `LoadDump` does to the lines it reads: a column with the guid of an item or the id of a mail
gets its number from the map (`Renames`), which stays as it is once a name is in it; the rows of
pets get a new number whenever the pet changes (`petPairs_loadLines`), and the tables of pets the
number their pet got first.
-/

import ZerosCore.Tools.Writer

namespace ZerosCore.PlayerDump

open Lib List Option Subset DumpTableType Numbering

variable {env : LoadEnv} {st st' : LoadState} {t : Table} {r r' : Row} {l l' : Line}
  {ls ls' : List Line}

/-! ### One line -/

/-- The columns `LoadDump` writes to. -/
def DumpTableType.changedColumns : DumpTableType → List ℕ
  | .character => [0, 1, 2, 37, 62, 63, 64]
  | .charTable => [0]
  | .eqsetTable => [0, 1]
  | .inventory => [0, 1, 3]
  | .mail => [0, 5]
  | .mailItem => [0, 1, 2]
  | .item => [0, 2]
  | .itemGift => [0, 1]
  | .pet => [0, 2]
  | .petTable => [0]

/-- The tables whose columns of items are renamed. -/
def DumpTableType.RenamesItems (type : DumpTableType) : Prop :=
  type = .inventory ∨ type = .itemGift ∨ type = .mailItem ∨ type = .item

/-- A loaded line has the numbers of the maps. -/
structure Renames (st : LoadState) (l l' : Line) : Prop where
  table : l'.table = l.table
  items : l.table.type.RenamesItems → ∀ n ∈ l.itemRefs, (l.row n, l'.row n) ∈ st.items
  mails : ∀ n ∈ l.table.mailColumns, (l.row n, l'.row n) ∈ st.mails
  pets : l.table.type = .petTable → (l.row 0, l'.row 0) ∈ st.petids
  same : ∀ n, n ∉ l.table.type.changedColumns → l'.row n = l.row n

/-- The maps are kept, with what is put into them. -/
structure Extends (st st' : LoadState) : Prop where
  items : st.items ⊆ st'.items
  mails : st.mails ⊆ st'.mails
  petids : st.petids ⊆ st'.petids

/-- The maps number their names from the first free id. -/
structure Maps (env : LoadEnv) (st : LoadState) : Prop where
  items : Numbering.Numbered env.hiItemGuid st.items
  mails : Numbering.Numbered env.mailId st.mails

theorem Extends.refl (st : LoadState) : Extends st st :=
  ⟨Subset.refl _, Subset.refl _, Subset.refl _⟩

theorem Extends.trans {st'' : LoadState} (h : Extends st st') (h' : Extends st' st'') :
    Extends st st'' :=
  ⟨Subset.trans h.items h'.items, Subset.trans h.mails h'.mails, Subset.trans h.petids h'.petids⟩

theorem Renames.mono (h : Renames st l l') (hext : Extends st st') : Renames st' l l' :=
  ⟨h.table, fun ht n hn => hext.items (h.items ht n hn), fun n hn => hext.mails (h.mails n hn),
    fun ht => hext.petids (h.pets ht), h.same⟩

theorem changenth_of_ne {n k value : ℕ} (h : n ≠ k - 1) : changenth r k value n = r n :=
  Function.update_of_ne h ..

@[simp] theorem changenth_self {n value : ℕ} : changenth r n value (n - 1) = value :=
  Function.update_self ..

/-- **A column of guids is looked up in the map, or put into it.** -/
theorem changeGuid_spec (r : Row) (n : ℕ) (m : List (ℕ × ℕ)) (hi : ℕ) (nonzero : Bool) :
    (r (n - 1) ≠ 0 ∨ nonzero = false →
      (r (n - 1), (changeGuid r n m hi nonzero).1 (n - 1)) ∈ (changeGuid r n m hi nonzero).2) ∧
    (∀ k, k ≠ n - 1 → (changeGuid r n m hi nonzero).1 k = r k) ∧
    m ⊆ (changeGuid r n m hi nonzero).2 ∧
    (Numbering.Numbered hi m → Numbering.Numbered hi (changeGuid r n m hi nonzero).2) := by
  unfold changeGuid
  split_ifs with hzero
  · refine ⟨fun h => ?_, fun _ _ => rfl, refl _, id⟩
    rcases h with h | h
    · exact absurd hzero.2 h
    rw [h] at hzero
    exact absurd hzero.1 Bool.false_ne_true
  refine ⟨fun _ => ?_, fun k hk => changenth_of_ne hk, subset_register,
    Numbering.Numbered.register⟩
  simp only [changenth_self]
  exact mem_register

theorem mailColumns_eq_nil (h : t.type ≠ .mail) (h' : t.type ≠ .mailItem) : t.mailColumns = [] := by
  cases t <;> first | rfl | exact absurd rfl h | exact absurd rfl h'

theorem renames_of_same (hmail : t.type ≠ .mail) (hmailItem : t.type ≠ .mailItem)
    (hitems : ¬ t.type.RenamesItems) (hpet : t.type ≠ .petTable)
    (hsame : ∀ n, n ∉ t.type.changedColumns → r' n = r n) : Renames st ⟨t, r⟩ ⟨t, r'⟩ where
  table := rfl
  items := fun ht => absurd ht hitems
  mails := by simp [mailColumns_eq_nil hmail hmailItem]
  pets := fun ht => absurd ht hpet
  same := hsame

theorem loadCharacter_of_notMem {n : ℕ} (hn : n ∉ [0, 1, 2, 37, 62, 63, 64]) :
    loadCharacter env r n = r n := by
  simp only [mem_cons, not_mem_nil, or_false, not_or] at hn
  obtain ⟨h0, h1, h2, h37, h62, h63, h64⟩ := hn
  have hfirst : changenth (changenth r 1 env.guid) 2 env.account n = r n :=
    (changenth_of_ne (k := 2) h1).trans (changenth_of_ne (k := 1) h0)
  unfold loadCharacter
  rw [changenth_of_ne (k := 65) h64, changenth_of_ne (k := 64) h63, changenth_of_ne (k := 63) h62]
  cases env.name with
  | some name => exact (changenth_of_ne (k := 3) h2).trans hfirst
  | none =>
    simp only
    split_ifs
    · exact (changenth_of_ne (k := 38) h37).trans hfirst
    · exact hfirst

/-- What a line leaves of the maps and of its row. -/
structure Loads (env : LoadEnv) (st : LoadState) (l : Line) (st' : LoadState) (l' : Line) :
    Prop where
  ext : Extends st st'
  maps : Maps env st → Maps env st'
  renames : Renames st' l l'

theorem loads_inventory (env : LoadEnv) (st : LoadState) (r : Row) :
    let bag := changeGuid (changenth r 1 env.guid) 2 st.items env.hiItemGuid true
    let item := changeGuid bag.1 4 bag.2 env.hiItemGuid false
    Loads env st ⟨.characterInventory, r⟩ { st with items := item.2 }
      ⟨.characterInventory, item.1⟩ := by
  intro bag item
  obtain ⟨hbag, hbagSame, hbagSub, hbagNum⟩ :=
    changeGuid_spec (changenth r 1 env.guid) 2 st.items env.hiItemGuid true
  obtain ⟨hitem, hitemSame, hitemSub, hitemNum⟩ := changeGuid_spec bag.1 4 bag.2 env.hiItemGuid false
  have hr1 : changenth r 1 env.guid 1 = r 1 := changenth_of_ne (by decide)
  have hb3 : bag.1 3 = r 3 := (hbagSame 3 (by decide)).trans (changenth_of_ne (by decide))
  refine ⟨⟨Subset.trans hbagSub hitemSub, Subset.refl _, Subset.refl _⟩,
    fun h => ⟨hitemNum (hbagNum h.items), h.mails⟩, rfl, ?_, ?_, ?_, ?_⟩
  · rintro - n hn
    obtain ⟨hcol, hne⟩ := mem_filter.1 hn
    have hne' : r n ≠ 0 := of_decide_eq_true hne
    rcases mem_cons.1 hcol with rfl | hcol
    · have hmem := hbag (.inl (by rwa [hr1]))
      rw [hr1] at hmem
      have hkeep : item.1 1 = bag.1 1 := hitemSame 1 (by decide)
      simp only [hkeep]
      exact hitemSub hmem
    obtain rfl := mem_singleton.1 hcol
    have hmem := hitem (.inr rfl)
    rw [hb3] at hmem
    exact hmem
  · simp [Table.mailColumns]
  · intro ht
    cases ht
  intro n hn
  simp only [Table.type, changedColumns, mem_cons, not_mem_nil, or_false, not_or] at hn
  exact (hitemSame n hn.2.2).trans ((hbagSame n hn.2.1).trans (changenth_of_ne hn.1))

theorem loads_mail (env : LoadEnv) (st : LoadState) (r : Row) :
    let id := changeGuid r 1 st.mails env.mailId false
    Loads env st ⟨.mail, r⟩ { st with mails := id.2 } ⟨.mail, changenth id.1 6 env.guid⟩ := by
  intro id
  obtain ⟨hid, hidSame, hidSub, hidNum⟩ := changeGuid_spec r 1 st.mails env.mailId false
  refine ⟨⟨refl _, hidSub, refl _⟩, fun h => ⟨h.items, hidNum h.mails⟩, rfl, ?_, ?_, ?_, ?_⟩
  · intro ht
    simp [DumpTableType.RenamesItems, Table.type] at ht
  · intro n hn
    obtain rfl := mem_singleton.1 hn
    have hkeep : changenth id.1 6 env.guid 0 = id.1 0 := changenth_of_ne (by decide)
    simp only [hkeep]
    exact hid (.inr rfl)
  · intro ht
    cases ht
  intro n hn
  simp only [Table.type, changedColumns, mem_cons, not_mem_nil, or_false, not_or] at hn
  exact (changenth_of_ne hn.2).trans (hidSame n hn.1)

theorem loads_mailItem (env : LoadEnv) (st : LoadState) (r : Row) :
    let id := changeGuid r 1 st.mails env.mailId false
    let item := changeGuid id.1 2 st.items env.hiItemGuid false
    Loads env st ⟨.mailItems, r⟩ { st with mails := id.2, items := item.2 }
      ⟨.mailItems, changenth item.1 3 env.guid⟩ := by
  intro id item
  obtain ⟨hid, hidSame, hidSub, hidNum⟩ := changeGuid_spec r 1 st.mails env.mailId false
  obtain ⟨hitem, hitemSame, hitemSub, hitemNum⟩ :=
    changeGuid_spec id.1 2 st.items env.hiItemGuid false
  refine ⟨⟨hitemSub, hidSub, refl _⟩,
    fun h => ⟨hitemNum h.items, hidNum h.mails⟩, rfl, ?_, ?_, ?_, ?_⟩
  · rintro - n hn
    obtain rfl := mem_singleton.1 (mem_filter.1 hn).1
    have hkeep : changenth item.1 3 env.guid 1 = item.1 1 := changenth_of_ne (by decide)
    have hmem := hitem (.inr rfl)
    have hold : id.1 1 = r 1 := hidSame 1 (by decide)
    simp only [hkeep]
    rwa [hold] at hmem
  · intro n hn
    obtain rfl := mem_singleton.1 hn
    have hkeep : changenth item.1 3 env.guid 0 = id.1 0 :=
      (changenth_of_ne (by decide)).trans (hitemSame 0 (by decide))
    simp only [hkeep]
    exact hid (.inr rfl)
  · intro ht
    cases ht
  intro n hn
  simp only [Table.type, changedColumns, mem_cons, not_mem_nil, or_false, not_or] at hn
  exact (changenth_of_ne hn.2.2).trans ((hitemSame n hn.2.1).trans (hidSame n hn.1))

theorem loads_item (env : LoadEnv) (st : LoadState) (r : Row) :
    let item := changeGuid r 1 st.items env.hiItemGuid false
    Loads env st ⟨.itemInstance, r⟩ { st with items := item.2 }
      ⟨.itemInstance, changenth item.1 3 env.guid⟩ := by
  intro item
  obtain ⟨hitem, hitemSame, hitemSub, hitemNum⟩ := changeGuid_spec r 1 st.items env.hiItemGuid false
  refine ⟨⟨hitemSub, refl _, refl _⟩, fun h => ⟨hitemNum h.items, h.mails⟩, rfl, ?_, ?_, ?_, ?_⟩
  · rintro - n hn
    obtain rfl := mem_singleton.1 (mem_filter.1 hn).1
    have hkeep : changenth item.1 3 env.guid 0 = item.1 0 := changenth_of_ne (by decide)
    simp only [hkeep]
    exact hitem (.inr rfl)
  · simp [Table.mailColumns]
  · intro ht
    cases ht
  intro n hn
  simp only [Table.type, changedColumns, mem_cons, not_mem_nil, or_false, not_or] at hn
  exact (changenth_of_ne hn.2).trans (hitemSame n hn.1)

theorem loads_itemGift (env : LoadEnv) (st : LoadState) (r : Row) :
    let item := changeGuid (changenth r 1 env.guid) 2 st.items env.hiItemGuid false
    Loads env st ⟨.characterGifts, r⟩ { st with items := item.2 } ⟨.characterGifts, item.1⟩ := by
  intro item
  obtain ⟨hitem, hitemSame, hitemSub, hitemNum⟩ :=
    changeGuid_spec (changenth r 1 env.guid) 2 st.items env.hiItemGuid false
  refine ⟨⟨hitemSub, refl _, refl _⟩, fun h => ⟨hitemNum h.items, h.mails⟩, rfl, ?_, ?_, ?_, ?_⟩
  · rintro - n hn
    obtain rfl := mem_singleton.1 (mem_filter.1 hn).1
    have hmem := hitem (.inr rfl)
    have hold : changenth r 1 env.guid 1 = r 1 := changenth_of_ne (by decide)
    rwa [hold] at hmem
  · simp [Table.mailColumns]
  · intro ht
    cases ht
  intro n hn
  simp only [Table.type, changedColumns, mem_cons, not_mem_nil, or_false, not_or] at hn
  exact (hitemSame n hn.2).trans (changenth_of_ne hn.1)

theorem subset_petids (env : LoadEnv) (st : LoadState) (r : Row) :
    st.petids ⊆ (loadPet env st r).1.petids := by
  unfold loadPet
  cases hlook : st.petids.lookup (r 0) with
  | some id => simp
  | none => simp

/-- **What one line does to the maps and to its row.** -/
theorem loads_loadRow (h : loadRow env st t r = some (st', r')) :
    Loads env st ⟨t, r⟩ st' ⟨t, r'⟩ := by
  unfold loadRow at h
  split at h
  all_goals rename_i ht
  · obtain ⟨rfl, rfl⟩ : st = st' ∧ loadCharacter env r = r' := by simpa using h
    exact ⟨Extends.refl _, id, renames_of_same (by simp [ht]) (by simp [ht])
      (by simp [ht, DumpTableType.RenamesItems]) (by simp [ht]) fun n hn =>
        loadCharacter_of_notMem (by simpa [ht, changedColumns] using hn)⟩
  · obtain ⟨rfl, rfl⟩ : st = st' ∧ changenth r 1 env.guid = r' := by simpa using h
    exact ⟨Extends.refl _, id, renames_of_same (by simp [ht]) (by simp [ht])
      (by simp [ht, DumpTableType.RenamesItems]) (by simp [ht]) fun n hn =>
        changenth_of_ne (by simpa [ht, changedColumns] using hn)⟩
  · obtain ⟨rfl, rfl⟩ := Prod.mk.inj (some.inj h)
    refine ⟨⟨refl _, refl _, refl _⟩,
      fun hm => ⟨hm.items, hm.mails⟩, renames_of_same (by simp [ht]) (by simp [ht])
      (by simp [ht, DumpTableType.RenamesItems]) (by simp [ht]) fun n hn => ?_⟩
    simp only [ht, changedColumns, mem_cons, not_mem_nil, or_false, not_or] at hn
    exact (changenth_of_ne hn.2).trans (changenth_of_ne hn.1)
  · cases t <;> cases ht
    obtain ⟨rfl, rfl⟩ := Prod.mk.inj (some.inj h)
    exact loads_inventory env st r
  · cases t <;> cases ht
    obtain ⟨rfl, rfl⟩ := Prod.mk.inj (some.inj h)
    exact loads_mail env st r
  · cases t <;> cases ht
    obtain ⟨rfl, rfl⟩ := Prod.mk.inj (some.inj h)
    exact loads_mailItem env st r
  · cases t <;> cases ht
    obtain ⟨rfl, rfl⟩ := Prod.mk.inj (some.inj h)
    exact loads_item env st r
  · cases t <;> cases ht
    obtain ⟨rfl, rfl⟩ := Prod.mk.inj (some.inj h)
    exact loads_itemGift env st r
  · obtain ⟨rfl, rfl⟩ := Prod.mk.inj (some.inj h)
    refine ⟨⟨refl _, refl _, subset_petids env st r⟩,
      fun hm => ⟨hm.items, hm.mails⟩, renames_of_same (by simp [ht]) (by simp [ht])
      (by simp [ht, DumpTableType.RenamesItems]) (by simp [ht]) fun n hn => ?_⟩
    simp only [ht, changedColumns, mem_cons, not_mem_nil, or_false, not_or] at hn
    exact (changenth_of_ne hn.2).trans (changenth_of_ne hn.1)
  split at h
  · rename_i id hid
    obtain ⟨rfl, rfl⟩ := Prod.mk.inj (some.inj h)
    refine ⟨⟨refl _, refl _, refl _⟩,
      fun hm => ⟨hm.items, hm.mails⟩, rfl, ?_, ?_, fun _ => ?_, ?_⟩
    · intro hren
      simp [ht, DumpTableType.RenamesItems] at hren
    · simp [mailColumns_eq_nil (t := t) (by simp [ht]) (by simp [ht])]
    · exact mem_of_lookup hid
    intro n hn
    exact changenth_of_ne (by simpa [ht, changedColumns] using hn)
  · cases h

/-! ### All lines -/

theorem loadLines_cons (h : loadLines env st (l :: ls) = some (st', ls')) :
    env.lineLength l < lineBuffer ∧ ∃ st1 r' ls1, loadRow env st l.table l.row = some (st1, r') ∧
      loadLines env st1 ls = some (st', ls1) ∧ ls' = ⟨l.table, r'⟩ :: ls1 := by
  unfold loadLines at h
  split_ifs at h with hshort
  obtain ⟨⟨st1, r'⟩, hrow, hrest⟩ := bind_eq_some_iff.1 h
  obtain ⟨⟨st2, ls1⟩, hls, heq⟩ := map_eq_some_iff.1 hrest
  obtain ⟨rfl, rfl⟩ := Prod.mk.inj heq
  exact ⟨hshort, st1, r', ls1, hrow, hls, rfl⟩

/-- **The lines are renamed by the maps the load ends with.** -/
theorem loads_loadLines (h : loadLines env st ls = some (st', ls')) :
    Extends st st' ∧ (Maps env st → Maps env st') ∧ Forall₂ (Renames st') ls ls' := by
  induction ls generalizing st ls' with
  | nil =>
    obtain ⟨rfl, rfl⟩ := Prod.mk.inj (some.inj h)
    exact ⟨Extends.refl _, id, .nil⟩
  | cons l ls ih =>
    obtain ⟨-, st1, r', ls1, hrow, hrest, rfl⟩ := loadLines_cons h
    have hload := loads_loadRow hrow
    obtain ⟨hext, hmaps, hren⟩ := ih hrest
    exact ⟨hload.ext.trans hext, fun hm => hmaps (hload.maps hm),
      .cons (hload.renames.mono hext) hren⟩

theorem loadLines_append (ls1 ls2 : List Line) :
    loadLines env st (ls1 ++ ls2) = (loadLines env st ls1).bind fun p =>
      (loadLines env p.1 ls2).map fun q => (q.1, p.2 ++ q.2) := by
  induction ls1 generalizing st with
  | nil => simp [loadLines]
  | cons l ls1 ih =>
    rw [cons_append, loadLines, loadLines]
    split_ifs with hshort
    · cases hrow : loadRow env st l.table l.row with
      | none => simp
      | some p =>
        simp only [bind_some, ih]
        cases loadLines env p.1 ls1 with
        | none => simp
        | some q => simp [Option.map_map, Function.comp_def]
    · simp

/-! ### Pets -/

/-- The pets of the lines of `character_pet` and `character_pet_declinedname`, in order. -/
def petIds (ls : List Line) : List ℕ :=
  (ls.filter fun l => l.table.type = .pet).map fun l => l.row 0

theorem petColumns_of_type (h : t.type = .pet) : t.petColumns = [0] := by
  cases t <;> first | rfl | cases h

theorem petColumns_eq_nil (h : t.type ≠ .pet) (h' : t.type ≠ .petTable) : t.petColumns = [] := by
  cases t <;> first | rfl | exact absurd rfl h | exact absurd rfl h'

theorem petColumns_of_petTable (h : t.type = .petTable) : t.petColumns = [0] := by
  cases t <;> first | rfl | cases h

theorem loadRow_of_not_pet (h : loadRow env st t r = some (st', r')) (hpet : t.type ≠ .pet)
    (htable : t.type ≠ .petTable) :
    st'.petids = st.petids ∧ st'.newpetid = st.newpetid ∧ st'.lastpetid = st.lastpetid ∧
      st'.hiPetNumber = st.hiPetNumber := by
  unfold loadRow at h
  split at h
  all_goals first
    | exact absurd (by assumption) hpet
    | exact absurd (by assumption) htable
    | obtain ⟨rfl, -⟩ := Prod.mk.inj (some.inj h)
      exact ⟨rfl, rfl, rfl, rfl⟩

theorem loadRow_pet (h : loadRow env st t r = some (st', r')) (hpet : t.type = .pet) :
    (st', r') = loadPet env st r := by
  unfold loadRow at h
  rw [hpet] at h
  exact (some.inj h).symm

/-- **The lines before the tables of pets.**  The pets get a new number whenever the pet changes,
and the map has every pet with a number it got. -/
theorem petPairs_loadLines (h : loadLines env st ls = some (st', ls'))
    (hls : ∀ l ∈ ls, l.table.type ≠ .petTable) : allPairs petPairs ls ls' =
      numberRuns st.lastpetid st.newpetid st.hiPetNumber (petIds ls) ∧
    st'.petids ⊆ st.petids ++ allPairs petPairs ls ls' ∧
    ∀ i ∈ petIds ls, ∃ n, (i, n) ∈ st'.petids := by
  induction ls generalizing st ls' with
  | nil =>
    obtain ⟨rfl, rfl⟩ := Prod.mk.inj (some.inj h)
    simp [allPairs, petIds, numberRuns]
  | cons l ls ih =>
    obtain ⟨-, st1, r', ls1, hrow, hrest, rfl⟩ := loadLines_cons h
    obtain ⟨htable, hls⟩ := forall_mem_cons.1 hls
    obtain ⟨hpairs, hsub, hnames⟩ := ih hrest hls
    have hcons : allPairs petPairs (l :: ls) (⟨l.table, r'⟩ :: ls1) =
        petPairs l ⟨l.table, r'⟩ ++ allPairs petPairs ls ls1 := by
      simp [allPairs]
    by_cases hpet : l.table.type = .pet
    · have hload := loadRow_pet hrow hpet
      have hids : petIds (l :: ls) = l.row 0 :: petIds ls := by
        simp [petIds, hpet]
      obtain ⟨hst, hr'⟩ := Prod.mk.inj hload
      have hnew : r' 0 = (nextRun st.lastpetid st.newpetid st.hiPetNumber (l.row 0)).1 := by
        rw [hr']
        exact (changenth_of_ne (by decide)).trans changenth_self
      have hfirst : petPairs l ⟨l.table, r'⟩ = [(l.row 0, r' 0)] := by
        simp [petPairs, petColumns_of_type hpet]
      have hkeep : (∃ n, (l.row 0, n) ∈ st1.petids) ∧
          st1.petids ⊆ st.petids ++ [(l.row 0, r' 0)] := by
        rw [hst, hnew]
        simp only
        cases hlook : st.petids.lookup (l.row 0) with
        | some id =>
          exact ⟨⟨id, mem_of_lookup hlook⟩, subset_append_left _ _⟩
        | none =>
          exact ⟨⟨_, mem_append_right _ mem_cons_self⟩, refl _⟩
      have hext := (loads_loadLines hrest).1
      rw [hcons, hids, hfirst]
      refine ⟨?_, ?_, ?_⟩
      · rw [singleton_append, numberRuns, hpairs, hnew, hst]
      · intro p hp
        rcases mem_append.1 (hsub hp) with hp | hp
        · rcases mem_append.1 (hkeep.2 hp) with hp | hp
          · exact mem_append_left _ hp
          · exact mem_append_right _ (mem_append_left _ hp)
        · exact mem_append_right _ (mem_append_right _ hp)
      intro i hi
      rcases mem_cons.1 hi with rfl | hi
      · obtain ⟨n, hn⟩ := hkeep.1
        exact ⟨n, hext.petids hn⟩
      · exact hnames i hi
    have hids : petIds (l :: ls) = petIds ls := by
      simp [petIds, hpet]
    obtain ⟨hpetids, hnew, hlast, hctr⟩ := loadRow_of_not_pet hrow hpet htable
    have hfirst : petPairs l ⟨l.table, r'⟩ = [] := by
      simp [petPairs, petColumns_eq_nil hpet htable]
    rw [hcons, hids, hfirst, nil_append, ← hpetids, ← hnew, ← hlast, ← hctr]
    exact ⟨hpairs, hsub, hnames⟩

theorem petids_loadLines (h : loadLines env st ls = some (st', ls'))
    (hls : ∀ l ∈ ls, l.table.type ≠ .pet) : st'.petids = st.petids := by
  induction ls generalizing st ls' with
  | nil =>
    obtain ⟨rfl, -⟩ := Prod.mk.inj (some.inj h)
    rfl
  | cons l ls ih =>
    obtain ⟨-, st1, r', ls1, hrow, hrest, -⟩ := loadLines_cons h
    obtain ⟨hpet, hls⟩ := forall_mem_cons.1 hls
    rw [ih hrest hls]
    by_cases htable : l.table.type = .petTable
    · unfold loadRow at hrow
      rw [htable] at hrow
      simp only at hrow
      split at hrow
      · obtain ⟨rfl, -⟩ := Prod.mk.inj (some.inj hrow)
        rfl
      · cases hrow
    · exact (loadRow_of_not_pet hrow hpet htable).1

theorem petPairs_subset (h : Forall₂ (Renames st) ls ls')
    (hls : ∀ l ∈ ls, l.table.type ≠ .pet) : allPairs petPairs ls ls' ⊆ st.petids := by
  induction h with
  | nil => simp [allPairs]
  | @cons l l' ls ls' hl _ ih =>
    obtain ⟨hpet, hls⟩ := forall_mem_cons.1 hls
    have hcons : allPairs petPairs (l :: ls) (l' :: ls') =
        petPairs l l' ++ allPairs petPairs ls ls' := by
      simp [allPairs]
    rw [hcons]
    refine append_subset.2 ⟨?_, ih hls⟩
    by_cases htable : l.table.type = .petTable
    · simpa [petPairs, petColumns_of_petTable htable] using hl.pets htable
    · simp [petPairs, petColumns_eq_nil hpet htable]

/-- **Nothing but a long line or a pet without a row stops a load.** -/
theorem exists_loadLines (hshort : ∀ l ∈ ls, env.lineLength l < lineBuffer)
    (hpets : ∀ l ∈ ls, l.table.type = .petTable → ∃ n, (l.row 0, n) ∈ st.petids) :
    ∃ p, loadLines env st ls = some p := by
  induction ls generalizing st with
  | nil => exact ⟨_, rfl⟩
  | cons l ls ih =>
    obtain ⟨hl, hshort⟩ := forall_mem_cons.1 hshort
    obtain ⟨hpet, hpets⟩ := forall_mem_cons.1 hpets
    have hrow : ∃ p, loadRow env st l.table l.row = some p := by
      unfold loadRow
      split
      all_goals first
        | exact ⟨_, rfl⟩
        | skip
      rename_i ht
      obtain ⟨n, hn⟩ := hpet ht
      obtain ⟨k, hk⟩ := exists_lookup hn
      rw [hk]
      exact ⟨_, rfl⟩
    obtain ⟨⟨st1, r'⟩, hrow⟩ := hrow
    have hext := (loads_loadRow hrow).ext
    obtain ⟨q, hq⟩ := ih hshort fun l' hl' ht => by
      obtain ⟨n, hn⟩ := hpets l' hl' ht
      exact ⟨n, hext.petids hn⟩
    refine ⟨(q.1, ⟨l.table, r'⟩ :: q.2), ?_⟩
    rw [loadLines, if_pos hl, hrow, bind_some, hq, map_some]

end ZerosCore.PlayerDump
