/-
# What a dump has to keep

`Faithful` says what a dump and its load have to keep of a character: every row that belongs to
the character, once and with its other columns; for every item a row of the inventory, of the
gifts or of the mails names, the row of its instance; and one new name for every old one.

`GetDump` collects guids while it goes through the tables in a fixed order, so a table gets the
guids that the tables before it have collected (`rows_of_dump`): the gifts come before the
inventory and get none, the instances come before the mails and get the items of the inventory
alone.  The rows of many guids are found part by part, up to the first part that finds none
(`dumpParts_perm`).
-/

import Mathlib.Data.List.Perm.Basic
import ZerosCore.Tools.PlayerDump

namespace ZerosCore.PlayerDump

open Lib List Option

variable {D : Database} {guid : ℕ} {t : Table} {guids : List ℕ} {s : Guids}

/-! ### What belongs to a character -/

def ownRows (D : Database) (guid : ℕ) (t : Table) : List Row :=
  (D t).filter fun r => r t.field.2 = guid

def rowsOf (D : Database) (t : Table) (guids : List ℕ) : List Row :=
  (D t).filter fun r => r t.field.2 ∈ guids

def inventoryItems (D : Database) (guid : ℕ) : List ℕ :=
  storeGuids 3 (ownRows D guid .characterInventory) []

def ownMails (D : Database) (guid : ℕ) : List ℕ := storeGuids 0 (ownRows D guid .mail) []

def ownPets (D : Database) (guid : ℕ) : List ℕ :=
  storeGuids 0 (ownRows D guid .characterPetDeclinedname)
    (storeGuids 0 (ownRows D guid .characterPet) [])

/-- The items of the inventory and of the mails. -/
def ownItems (D : Database) (guid : ℕ) : List ℕ :=
  storeGuids 1 (rowsOf D .mailItems (ownMails D guid)) (inventoryItems D guid)

/-- The character's pets, mails and items. -/
def owned (D : Database) (guid : ℕ) : Guids :=
  ⟨ownPets D guid, ownMails D guid, ownItems D guid⟩

def belonging (D : Database) (guid : ℕ) (t : Table) : List Row :=
  match (owned D guid).guids t with
  | some guids => rowsOf D t guids
  | none => ownRows D guid t

/-! ### Columns -/

/-- The columns that hold guids of items, 0 for none. -/
def Table.itemColumns : Table → List ℕ
  | .characterInventory => [1, 3]
  | .characterGifts => [1]
  | .mailItems => [1]
  | .itemInstance => [0]
  | .characterEquipmentsets => List.range' 6 19
  | .characterAura => [2]
  | _ => []

def Table.mailColumns : Table → List ℕ
  | .mail => [0]
  | .mailItems => [0]
  | _ => []

def Table.petColumns : Table → List ℕ
  | .characterPet => [0]
  | .characterPetDeclinedname => [0]
  | .petAura => [0]
  | .petSpell => [0]
  | .petSpellCooldown => [0]
  | _ => []

/-- The columns a new character changes: the ids, its owner, and of the character itself the
account, the name, the flags at login and those about its deletion. -/
def Table.idColumns : Table → List ℕ
  | .characters => [0, 1, 2, 37, 62, 63, 64]
  | .characterEquipmentsets => List.range' 0 2 ++ List.range' 6 19
  | .characterInventory => [0, 1, 3]
  | .characterGifts => [0, 1]
  | .characterPet => [0, 2]
  | .characterPetDeclinedname => [0, 1]
  | .itemInstance => [0, 2]
  | .mail => [0, 5]
  | .mailItems => [0, 1, 2]
  | .characterAura => [0, 2]
  | _ => [0]

/-- The guid of an item in a column: an aura holds the long form, with the guid in its low part. -/
def Table.lowGuid (t : Table) (value : ℕ) : ℕ :=
  if t = .characterAura then value % 2 ^ 32 else value

def Line.itemRefs (l : Line) : List ℕ := l.table.itemColumns.filter fun n => l.row n ≠ 0

/-- The old and the new guids of the items a line names. -/
def itemPairs (l l' : Line) : List (ℕ × ℕ) :=
  l.itemRefs.map fun n => (l.table.lowGuid (l.row n), l.table.lowGuid (l'.row n))

def mailPairs (l l' : Line) : List (ℕ × ℕ) :=
  l.table.mailColumns.map fun n => (l.row n, l'.row n)

def petPairs (l l' : Line) : List (ℕ × ℕ) :=
  l.table.petColumns.map fun n => (l.row n, l'.row n)

def allPairs (pairs : Line → Line → List (ℕ × ℕ)) (dump loaded : List Line) : List (ℕ × ℕ) :=
  (List.zipWith pairs dump loaded).flatten

/-- A loaded line is the dumped one up to its ids. -/
def Copies (l l' : Line) : Prop :=
  l'.table = l.table ∧ ∀ n, n ∉ l.table.idColumns → l'.row n = l.row n

/-- A table whose items need their instances. -/
def Table.UsesItems (t : Table) : Prop :=
  t = .characterInventory ∨ t = .characterGifts ∨ t = .mailItems

/-- **What a dump and its load keep.** -/
structure Faithful (D : Database) (guid : ℕ) (dump loaded : List Line) : Prop where
  /-- the items a row names have their instances -/
  instances : ∀ p ∈ dump.zip loaded, p.1.table.UsesItems → ∀ n ∈ p.1.itemRefs,
    ∃ i ∈ loaded, i.table = .itemInstance ∧ i.row 0 = p.2.row n
  /-- the rows of the character are dumped once -/
  rows : ∀ t ∈ dumpTables,
    ((dump.filter fun l => l.table = t).map Line.row).Perm (belonging D guid t)
  /-- and loaded -/
  copies : List.Forall₂ Copies dump loaded
  items : Numbering.OneToOne (allPairs itemPairs dump loaded)
  mails : Numbering.OneToOne (allPairs mailPairs dump loaded)
  pets : Numbering.OneToOne (allPairs petPairs dump loaded)

/-! ### Parts of a query -/

/-- Behind a part whose query finds nothing there is nothing to find. -/
def Gapless (D : Database) (t : Table) : List (List ℕ × ℕ) → Prop
  | [] => True
  | part :: parts =>
    if (partRows D t part).isEmpty then
      ∀ r ∈ D t, r t.field.2 ∉ ((part :: parts).map Prod.fst).flatten
    else Gapless D t parts

instance instDecidableGapless (D : Database) (t : Table) :
    ∀ parts : List (List ℕ × ℕ), Decidable (Gapless D t parts)
  | [] => .isTrue trivial
  | part :: parts =>
    have := instDecidableGapless D t parts
    inferInstanceAs (Decidable (if (partRows D t part).isEmpty then
      ∀ r ∈ D t, r t.field.2 ∉ ((part :: parts).map Prod.fst).flatten
      else Gapless D t parts))

theorem flatten_whereParts {start len : ℕ} {gs acc : List ℕ} (h : gs ≠ []) :
    ((whereParts start gs acc len).map Prod.fst).flatten = acc ++ gs := by
  induction gs generalizing acc len with
  | nil => exact absurd rfl h
  | cons g gs ih =>
    unfold whereParts
    by_cases hgs : gs = []
    · subst hgs
      rw [if_pos rfl]
      split_ifs <;> simp [whereParts]
    split_ifs
    · rw [map_cons, flatten_cons, ih hgs]
      simp
    rw [ih hgs]
    simp

theorem flatten_parts (t : Table) (guids : List ℕ) :
    ((t.parts guids).map Prod.fst).flatten = guids := by
  unfold Table.parts
  by_cases h : guids = []
  · rw [h]
    rfl
  · rw [flatten_whereParts h, nil_append]

theorem partRows_eq {part : List ℕ × ℕ} (h : ¬ (partRows D t part).isEmpty) :
    partRows D t part = (D t).filter fun r => r t.field.2 ∈ part.1 := by
  unfold partRows at h ⊢
  split_ifs at h ⊢
  · rfl
  · exact absurd rfl h

theorem filter_append_perm (rows : List Row) (key : Row → ℕ) {as bs : List ℕ}
    (h : (as ++ bs).Nodup) : (rows.filter fun r => key r ∈ as ++ bs).Perm
      (rows.filter (fun r => key r ∈ as) ++ rows.filter fun r => key r ∈ bs) := by
  induction rows with
  | nil => exact List.Perm.refl _
  | cons r rows ih =>
    have hdisj := (nodup_append.1 h).2.2
    by_cases ha : key r ∈ as
    · have hb : key r ∉ bs := fun hb => hdisj _ ha _ hb rfl
      simpa [filter_cons, ha, hb] using ih
    by_cases hb : key r ∈ bs
    · have hmid := (ih.cons r).trans perm_middle.symm
      simpa [filter_cons, ha, hb] using hmid
    · simpa [filter_cons, ha, hb] using ih

variable {parts : List (List ℕ × ℕ)}

/-- **The parts find every row just when there is no gap.** -/
theorem dumpParts_perm (h : ((parts.map Prod.fst).flatten).Nodup) :
    (dumpParts D t parts).Perm ((D t).filter fun r => r t.field.2 ∈ (parts.map Prod.fst).flatten) ↔
      Gapless D t parts := by
  induction parts with
  | nil => simp [dumpParts, Gapless]
  | cons part parts ih =>
    rw [map_cons, flatten_cons] at h
    have hih := ih (nodup_append.1 h).2.1
    unfold dumpParts Gapless
    split_ifs with hempty
    · rw [nil_perm, filter_eq_nil_iff]
      simp
    rw [← hih, map_cons, flatten_cons,
      (filter_append_perm (D t) (fun r => r t.field.2) h).congr_right, partRows_eq hempty]
    exact perm_append_left_iff _

theorem dumpParts_parts_perm (h : guids.Nodup) :
    (dumpParts D t (t.parts guids)).Perm (rowsOf D t guids) ↔ Gapless D t (t.parts guids) := by
  have hnodup : (((t.parts guids).map Prod.fst).flatten).Nodup := by rwa [flatten_parts]
  rw [← dumpParts_perm hnodup, flatten_parts]
  rfl

variable {r : Row}

theorem mem_of_mem_dumpParts (h : r ∈ dumpParts D t parts) :
    r ∈ D t ∧ r t.field.2 ∈ (parts.map Prod.fst).flatten := by
  induction parts with
  | nil => simp [dumpParts] at h
  | cons part parts ih =>
    unfold dumpParts at h
    split_ifs at h with hempty
    · simp at h
    rw [partRows_eq hempty] at h
    rcases mem_append.1 h with h | h
    · have := mem_filter.1 h
      exact ⟨this.1, by simpa using .inl (of_decide_eq_true this.2)⟩
    · exact ⟨(ih h).1, by simpa using .inr (by simpa using (ih h).2)⟩

theorem mem_rowsOf_of_dumpParts (h : r ∈ dumpParts D t (t.parts guids)) : r ∈ rowsOf D t guids := by
  obtain ⟨hmem, hkey⟩ := mem_of_mem_dumpParts h
  rw [flatten_parts] at hkey
  exact mem_filter.2 ⟨hmem, decide_eq_true hkey⟩

/-! ### The tables in their order -/

def Guids.after (D : Database) (guid : ℕ) (s : Guids) (t : Table) : Guids :=
  s.collect t (dumpRows D guid s t)

def dumpFrom (D : Database) (guid : ℕ) : Guids → List Table → List Line
  | _, [] => []
  | s, t :: ts => (dumpRows D guid s t).map (Line.mk t) ++ dumpFrom D guid (s.after D guid t) ts

variable {ts : List Table}

theorem foldlM_dumpTable {lines : List Line} {r : Guids × List Line}
    (h : ts.foldlM (dumpTable D guid) (s, lines) = some r) :
    r.2 = lines ++ dumpFrom D guid s ts := by
  induction ts generalizing s lines with
  | nil =>
    obtain rfl : (s, lines) = r := by simpa using h
    simp [dumpFrom]
  | cons t ts ih =>
    rw [foldlM_cons] at h
    unfold dumpTable at h
    simp only at h
    split_ifs at h with hdeleted
    · exact absurd h (by simp)
    have hrest := ih h
    rw [hrest, dumpFrom, append_assoc]
    rfl

variable {dump : List Line}

theorem eq_dumpFrom (h : getDump D guid = some dump) :
    dump = dumpFrom D guid ⟨[], [], []⟩ dumpTables := by
  unfold getDump at h
  obtain ⟨r, hr, rfl⟩ := map_eq_some_iff.1 h
  simpa using foldlM_dumpTable hr

theorem dumpFrom_append (s : Guids) (ts ts' : List Table) : dumpFrom D guid s (ts ++ ts') =
      dumpFrom D guid s ts ++ dumpFrom D guid (ts.foldl (Guids.after D guid) s) ts' := by
  induction ts generalizing s with
  | nil => rfl
  | cons t ts ih => rw [cons_append, dumpFrom, ih, dumpFrom, append_assoc]; rfl

theorem table_mem_of_mem_dumpFrom {l : Line} (h : l ∈ dumpFrom D guid s ts) : l.table ∈ ts := by
  induction ts generalizing s with
  | nil => simp [dumpFrom] at h
  | cons t ts ih =>
    rcases mem_append.1 h with h | h
    · obtain ⟨r, -, rfl⟩ := mem_map.1 h
      exact mem_cons_self
    · exact mem_cons_of_mem _ (ih h)

theorem filter_dumpFrom_eq_nil (ht : t ∉ ts) :
    (dumpFrom D guid s ts).filter (·.table = t) = [] := by
  rw [filter_eq_nil_iff]
  intro l hl heq
  exact ht (of_decide_eq_true heq ▸ table_mem_of_mem_dumpFrom hl)

/-- **A table gets the guids that the tables before it have collected.** -/
theorem rows_of_dumpFrom {pre post : List Table} (hts : ts = pre ++ t :: post) (hpre : t ∉ pre)
    (hpost : t ∉ post) : ((dumpFrom D guid s ts).filter (·.table = t)).map Line.row =
      dumpRows D guid (pre.foldl (Guids.after D guid) s) t := by
  rw [hts, dumpFrom_append, dumpFrom, List.filter_append, List.filter_append,
    filter_dumpFrom_eq_nil hpre, filter_dumpFrom_eq_nil hpost, List.nil_append, List.append_nil,
    List.filter_eq_self.2 (by simp), List.map_map]
  exact List.map_id _

def setsBefore (D : Database) (guid : ℕ) (t : Table) : Guids :=
  (dumpTables.takeWhile (· ≠ t)).foldl (Guids.after D guid) ⟨[], [], []⟩

/-- **The rows of a table in the dump.** -/
theorem rows_of_dump (h : getDump D guid = some dump) (t : Table) :
    (dump.filter (·.table = t)).map Line.row = dumpRows D guid (setsBefore D guid t) t := by
  rw [eq_dumpFrom h]
  have hsplit : dumpTables = dumpTables.takeWhile (· ≠ t) ++
      t :: (dumpTables.dropWhile (· ≠ t)).tail := by
    cases t <;> rfl
  refine rows_of_dumpFrom hsplit ?_ ?_
  · cases t <;> decide
  · cases t <;> decide

theorem dumpRows_gifts :
    dumpRows D guid (setsBefore D guid .characterGifts) .characterGifts = [] := rfl

theorem dumpRows_of_guids_eq_none (h : s.guids t = none) :
    dumpRows D guid s t = ownRows D guid t := by
  unfold dumpRows
  rw [h]
  rfl

variable {g : ℕ}

theorem mem_insertGuid {h : ℕ} : h ∈ insertGuid g guids ↔ h = g ∨ h ∈ guids := by
  unfold insertGuid
  split_ifs with hmem
  · exact ⟨.inr, fun hh => hh.elim (fun heq => heq ▸ hmem) id⟩
  · exact mem_orderedInsert _

theorem nodup_insertGuid (h : guids.Nodup) : (insertGuid g guids).Nodup := by
  unfold insertGuid
  split_ifs with hmem
  · exact h
  · exact (perm_orderedInsert _ g guids).nodup_iff.2 (nodup_cons.2 ⟨hmem, h⟩)

variable {column : ℕ} {rows : List Row}

theorem nodup_storeGuids (h : guids.Nodup) : (storeGuids column rows guids).Nodup := by
  unfold storeGuids
  induction rows generalizing guids with
  | nil => exact h
  | cons r rows ih =>
    refine ih ?_
    simp only
    split_ifs
    · exact h
    · exact nodup_insertGuid h

theorem nodup_inventoryItems : (inventoryItems D guid).Nodup := nodup_storeGuids nodup_nil

theorem nodup_ownMails : (ownMails D guid).Nodup := nodup_storeGuids nodup_nil

theorem nodup_ownPets : (ownPets D guid).Nodup :=
  nodup_storeGuids (nodup_storeGuids nodup_nil)

theorem mem_storeGuids :
    g ∈ storeGuids column rows guids ↔ g ∈ guids ∨ (g ≠ 0 ∧ ∃ r ∈ rows, r column = g) := by
  unfold storeGuids
  induction rows generalizing guids with
  | nil => simp
  | cons r rows ih =>
    rw [foldl_cons, ih, exists_mem_cons_iff]
    split_ifs with hr
    · refine or_congr_right (and_congr_right fun hg => ?_)
      exact ⟨.inr, fun h => h.resolve_left fun heq => hg (heq.symm.trans hr)⟩
    rw [mem_insertGuid]
    constructor
    · rintro ((rfl | h) | h)
      · exact .inr ⟨hr, .inl rfl⟩
      · exact .inl h
      · exact .inr ⟨h.1, .inr h.2⟩
    rintro (h | ⟨hg, rfl | h⟩)
    · exact .inl (.inr h)
    · exact .inl (.inl rfl)
    · exact .inr ⟨hg, h⟩

theorem storeGuids_eq_self
    (h : ∀ r ∈ rows, r column ≠ 0 → r column ∈ guids) : storeGuids column rows guids = guids := by
  unfold storeGuids
  induction rows with
  | nil => rfl
  | cons r rows ih =>
    obtain ⟨hr, hrows⟩ := forall_mem_cons.1 h
    have hstep : (if r column = 0 then guids else insertGuid (r column) guids) = guids := by
      split_ifs with hzero
      · rfl
      · exact if_pos (hr hzero)
    rw [foldl_cons, hstep]
    exact ih hrows

/-- **When every row of the character is dumped once**: no gift is for its items, the instances of
all its items are found among those of the inventory, and no query for its mails or pets leaves a
gap. -/
theorem rows_iff (h : getDump D guid = some dump) : (∀ t ∈ dumpTables,
      ((dump.filter fun l => l.table = t).map Line.row).Perm (belonging D guid t)) ↔
    rowsOf D .characterGifts (ownItems D guid) = [] ∧
    (dumpParts D .itemInstance (Table.parts .itemInstance (inventoryItems D guid))).Perm
      (rowsOf D .itemInstance (ownItems D guid)) ∧
    Gapless D .mailItems (Table.parts .mailItems (ownMails D guid)) ∧
    ∀ t : Table, t.type = .petTable → Gapless D t (t.parts (ownPets D guid)) := by
  simp only [rows_of_dump h]
  constructor
  · intro hrows
    refine ⟨?_, ?_, ?_, fun t ht => ?_⟩
    · have hgifts := hrows .characterGifts (by decide)
      rw [dumpRows_gifts] at hgifts
      exact nil_perm.1 hgifts
    · exact hrows .itemInstance (by decide)
    · exact (dumpParts_parts_perm nodup_ownMails).1 (hrows .mailItems (by decide))
    have hpet : ∀ t, t.type = .petTable → t ∈ dumpTables ∧
        (setsBefore D guid t).guids t = some (ownPets D guid) ∧
        belonging D guid t = rowsOf D t (ownPets D guid) := by
      intro t ht
      cases t <;> simp only [Table.type, reduceCtorEq] at ht <;> exact ⟨by decide, rfl, rfl⟩
    obtain ⟨hmem, hguids, hbelong⟩ := hpet t ht
    have hperm := hrows t hmem
    rw [dumpRows, hguids, hbelong] at hperm
    exact (dumpParts_parts_perm nodup_ownPets).1 hperm
  rintro ⟨hgifts, hitems, hmails, hpets⟩ t -
  cases t
  case characterGifts =>
      rw [dumpRows_gifts]
      exact nil_perm.2 hgifts
  case itemInstance => exact hitems
  case mailItems => exact (dumpParts_parts_perm nodup_ownMails).2 hmails
  case petAura => exact (dumpParts_parts_perm nodup_ownPets).2 (hpets .petAura rfl)
  case petSpell => exact (dumpParts_parts_perm nodup_ownPets).2 (hpets .petSpell rfl)
  case petSpellCooldown => exact (dumpParts_parts_perm nodup_ownPets).2 (hpets .petSpellCooldown rfl)
  all_goals exact List.Perm.refl _

end ZerosCore.PlayerDump
