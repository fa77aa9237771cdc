/-
# Tables keyed by a field of their rows

A map whose values carry their own key is a list of rows and a function `key`
reading the key of a row, the list being the order an iterator meets the rows
in.  `get?`, `erase` and `modify` are `find`, `erase` and a write through the
found pointer.

The facts below are the ones a proof about such a map needs: what `get?` finds
after each write, that writes keep the keys distinct, and how the sum of a
weight over the rows and the number of rows that pass a test move (`sum_erase`,
`sum_modify`, `Table.countP_erase`).  `Table` is the list together with the fact
that its keys are distinct.
-/

import Mathlib.Data.List.Nodup
import Mathlib.Algebra.BigOperators.Group.List.Basic
import Mathlib.Tactic.Abel

namespace Lib.Keyed

open List Option

variable {α κ M : Type*} {key : α → κ} {l : List α} {a b : α} {j k : κ}

/-- No two rows share a key. -/
def Distinct (key : α → κ) (l : List α) : Prop := (l.map key).Nodup

@[simp] theorem distinct_nil : Distinct key [] := nodup_nil

@[simp] theorem distinct_cons :
    Distinct key (b :: l) ↔ (∀ a ∈ l, key a ≠ key b) ∧ Distinct key l := by
  simp [Distinct]

theorem Distinct.eq_of_key (hl : Distinct key l) (ha : a ∈ l) (hb : b ∈ l)
    (h : key a = key b) : a = b :=
  inj_on_of_nodup_map hl ha hb h

theorem Distinct.filterMap (hl : Distinct key l) {f : α → Option α}
    (hf : ∀ a b, f a = some b → key b = key a) : Distinct key (l.filterMap f) := by
  induction l with
  | nil => simp
  | cons b l ih =>
    rw [distinct_cons] at hl
    rw [filterMap_cons]
    cases hb : f b with
    | none => exact ih hl.2
    | some c =>
      refine distinct_cons.mpr ⟨fun d hd => ?_, ih hl.2⟩
      obtain ⟨a, ha, had⟩ := mem_filterMap.mp hd
      rw [hf a d had, hf b c hb]
      exact hl.1 a ha

variable [DecidableEq κ]

instance : Decidable (Distinct key l) := inferInstanceAs (Decidable (l.map key).Nodup)

/-- The row with key `k`. -/
def get? (key : α → κ) (l : List α) (k : κ) : Option α := l.find? fun a => key a = k

/-- The table without the row with key `k`. -/
def erase (key : α → κ) (l : List α) (k : κ) : List α := l.filter fun a => key a ≠ k

/-- The table with the row with key `k` replaced by its image under `f`. -/
def modify (key : α → κ) (l : List α) (k : κ) (f : α → α) : List α :=
  l.map fun a => if key a = k then f a else a

@[simp] theorem get?_nil : get? key [] k = none := rfl

theorem get?_cons : get? key (b :: l) k = if key b = k then some b else get? key l k := by
  by_cases h : key b = k <;> simp [get?, h]

theorem mem_of_get? (h : get? key l k = some a) : a ∈ l := mem_of_find?_eq_some h

theorem key_of_get? (h : get? key l k = some a) : key a = k := by
  simpa using find?_some h

theorem get?_eq_none : get? key l k = none ↔ ∀ a ∈ l, key a ≠ k := by
  simp [get?, find?_eq_none]

theorem Distinct.get?_eq_some (hl : Distinct key l) :
    get? key l k = some a ↔ a ∈ l ∧ key a = k := by
  refine ⟨fun h => ⟨mem_of_get? h, key_of_get? h⟩, ?_⟩
  rintro ⟨ha, rfl⟩
  induction l with
  | nil => simp at ha
  | cons b l ih =>
    rw [distinct_cons] at hl
    rw [get?_cons]
    rcases mem_cons.mp ha with rfl | ha
    · simp
    · rw [if_neg (hl.1 a ha).symm, ih hl.2 ha]

variable {f : α → α}

theorem get?_modify_ne (h : j ≠ k) (hf : ∀ a, key a = k → key (f a) = k) :
    get? key (modify key l k f) j = get? key l j := by
  induction l with
  | nil => rfl
  | cons b l ih =>
    simp only [modify, map_cons] at ih ⊢
    by_cases hb : key b = k
    · rw [if_pos hb, get?_cons, get?_cons, ih, hf b hb, hb, if_neg h.symm, if_neg h.symm]
    · rw [if_neg hb, get?_cons, get?_cons, ih]

theorem get?_modify_self (hf : ∀ a, key a = k → key (f a) = k) :
    get? key (modify key l k f) k = (get? key l k).map f := by
  induction l with
  | nil => rfl
  | cons b l ih =>
    simp only [modify, map_cons] at ih ⊢
    by_cases hb : key b = k
    · rw [if_pos hb, get?_cons, get?_cons, if_pos (hf b hb), if_pos hb, map_some]
    · rw [if_neg hb, get?_cons, get?_cons, if_neg hb, if_neg hb, ih]

theorem get?_erase_ne (h : j ≠ k) : get? key (erase key l k) j = get? key l j := by
  induction l with
  | nil => rfl
  | cons b l ih =>
    by_cases hb : key b = k
    · have he : erase key (b :: l) k = erase key l k := by simp [erase, hb]
      rw [he, ih, get?_cons, hb, if_neg h.symm]
    have he : erase key (b :: l) k = b :: erase key l k := by simp [erase, hb]
    rw [he, get?_cons, get?_cons, ih]

theorem get?_erase_self : get? key (erase key l k) k = none := by
  simp [get?_eq_none, erase]

theorem mem_erase : a ∈ erase key l k ↔ a ∈ l ∧ key a ≠ k := by simp [erase]

theorem mem_modify : b ∈ modify key l k f ↔ (b ∈ l ∧ key b ≠ k) ∨ ∃ a ∈ l, key a = k ∧ f a = b := by
  simp only [modify, List.mem_map]
  constructor
  · rintro ⟨a, ha, rfl⟩
    by_cases hk : key a = k
    · exact .inr ⟨a, ha, hk, by rw [if_pos hk]⟩
    rw [if_neg hk]
    exact .inl ⟨ha, hk⟩
  rintro (⟨hb, hk⟩ | ⟨a, ha, hk, rfl⟩)
  · exact ⟨b, hb, if_neg hk⟩
  · exact ⟨a, ha, if_pos hk⟩

theorem map_key_modify (hf : ∀ a, key a = k → key (f a) = k) :
    (modify key l k f).map key = l.map key := by
  simp only [modify, List.map_map]
  refine List.map_congr_left fun a _ => ?_
  by_cases h : key a = k
  · simp [h, hf a h]
  · simp [h]

theorem Distinct.erase (hl : Distinct key l) (k : κ) : Distinct key (erase key l k) :=
  hl.sublist (List.Sublist.map key filter_sublist)

theorem Distinct.modify (hl : Distinct key l)
    (hf : ∀ a, key a = k → key (f a) = k) : Distinct key (modify key l k f) := by
  rw [Distinct, map_key_modify hf]
  exact hl

theorem erase_of_get?_none (h : get? key l k = none) : erase key l k = l := by
  rw [get?_eq_none] at h
  exact filter_eq_self.mpr fun a ha => by simpa using h a ha

theorem modify_of_get?_none (h : get? key l k = none) (f : α → α) : modify key l k f = l := by
  rw [get?_eq_none] at h
  exact (map_congr_left fun a ha => if_neg (h a ha)).trans (map_id' l)

section Sum

variable [AddCommMonoid M] (w : α → M)

/-- **Erasing a row takes its weight out of the sum.** -/
theorem sum_erase (hl : Distinct key l) (h : get? key l k = some a) :
    (l.map w).sum = w a + ((erase key l k).map w).sum := by
  induction l with
  | nil => simp at h
  | cons b l ih =>
    rw [distinct_cons] at hl
    rw [get?_cons] at h
    by_cases hb : key b = k
    · rw [if_pos hb, some.injEq] at h
      subst h hb
      have hnone : get? key l (key b) = none := get?_eq_none.mpr hl.1
      have he : erase key (b :: l) (key b) = l := by
        simpa [erase] using erase_of_get?_none hnone
      rw [he, map_cons, sum_cons]
    rw [if_neg hb] at h
    have he : erase key (b :: l) k = b :: erase key l k := by simp [erase, hb]
    rw [he, map_cons, sum_cons, map_cons, sum_cons, ih hl.2 h]
    abel

/-- **Replacing a row replaces its weight in the sum.** -/
theorem sum_modify (hl : Distinct key l) (h : get? key l k = some a) (f : α → α) :
    ((modify key l k f).map w).sum + w a = (l.map w).sum + w (f a) := by
  induction l with
  | nil => simp at h
  | cons b l ih =>
    rw [distinct_cons] at hl
    rw [get?_cons] at h
    by_cases hb : key b = k
    · rw [if_pos hb, some.injEq] at h
      subst h hb
      have hm : modify key (b :: l) (key b) f = f b :: l := by
        simpa [modify] using modify_of_get?_none (get?_eq_none.mpr hl.1) f
      rw [hm, map_cons, sum_cons, map_cons, sum_cons]
      abel
    rw [if_neg hb] at h
    have hm : modify key (b :: l) k f = b :: modify key l k f := by simp [modify, hb]
    rw [hm, map_cons, sum_cons, map_cons, sum_cons, add_assoc, ih hl.2 h, add_assoc]

end Sum

/-! ### Tables -/

/-- A list of rows with distinct keys. -/
structure Table (key : α → κ) where
  rows : List α
  distinct : Distinct key rows

namespace Table

variable {t : Table key}

instance [DecidableEq α] : DecidableEq (Table key) := fun t t' =>
  match decEq t.rows t'.rows with
  | .isTrue h => .isTrue (by cases t; cases t'; cases h; rfl)
  | .isFalse h => .isFalse fun h' => h (h' ▸ rfl)

instance [Repr α] : Repr (Table key) := ⟨fun t => reprPrec t.rows⟩

/-- The table without rows. -/
def empty (key : α → κ) : Table key := ⟨[], distinct_nil⟩

/-- The row with key `k`. -/
def get? (t : Table key) (k : κ) : Option α := Keyed.get? key t.rows k

/-- The table without the row with key `k`. -/
def erase (t : Table key) (k : κ) : Table key := ⟨Keyed.erase key t.rows k, t.distinct.erase k⟩

/-- The table with the row with key `k` replaced by its image under `f`, which
keeps the key. -/
def modify (t : Table key) (k : κ) (f : α → α) (hf : ∀ a, key (f a) = key a) : Table key :=
  ⟨Keyed.modify key t.rows k f, t.distinct.modify fun a h => (hf a).trans h⟩

/-- The table with `a` as the row with its key, in place of any such row. -/
def put (t : Table key) (a : α) : Table key :=
  ⟨a :: Keyed.erase key t.rows (key a), distinct_cons.mpr
    ⟨fun _ hb => (mem_erase.mp hb).2, t.distinct.erase _⟩⟩

/-- Every row kept and rewritten by `f`, or dropped. -/
def filterMap (t : Table key) (f : α → Option α) (hf : ∀ a b, f a = some b → key b = key a) :
    Table key :=
  ⟨t.rows.filterMap f, t.distinct.filterMap hf⟩

omit [DecidableEq κ] in
theorem eq_of_rows {t' : Table key} (h : t.rows = t'.rows) : t = t' := by
  cases t
  cases t'
  subst h
  rfl

theorem get?_eq_some : t.get? k = some a ↔ a ∈ t.rows ∧ key a = k := t.distinct.get?_eq_some

theorem get?_eq_none : t.get? k = none ↔ ∀ a ∈ t.rows, key a ≠ k := Keyed.get?_eq_none

theorem get?_key (ha : a ∈ t.rows) : t.get? (key a) = some a := get?_eq_some.mpr ⟨ha, rfl⟩

theorem get?_modify (f : α → α) (hf : ∀ a, key (f a) = key a) (j : κ) :
    (t.modify k f hf).get? j = if j = k then (t.get? j).map f else t.get? j := by
  by_cases h : j = k
  · rw [if_pos h, h]
    exact get?_modify_self fun a ha => (hf a).trans ha
  rw [if_neg h]
  exact get?_modify_ne h fun a ha => (hf a).trans ha

theorem get?_put (j : κ) : (t.put a).get? j = if j = key a then some a else t.get? j := by
  by_cases h : j = key a
  · rw [if_pos h, h, get?_eq_some]
    exact ⟨mem_cons_self, rfl⟩
  rw [if_neg h]
  show Keyed.get? key (a :: Keyed.erase key t.rows (key a)) j = _
  rw [Keyed.get?_cons, if_neg (Ne.symm h)]
  exact get?_erase_ne h

theorem get?_erase (j : κ) : (t.erase k).get? j = if j = k then none else t.get? j := by
  by_cases h : j = k
  · rw [if_pos h, h]
    exact get?_erase_self
  rw [if_neg h]
  exact get?_erase_ne h

theorem mem_rows_erase : a ∈ (t.erase k).rows ↔ a ∈ t.rows ∧ key a ≠ k := mem_erase

theorem mem_rows_modify (hf : ∀ a, key (f a) = key a) :
    b ∈ (t.modify k f hf).rows ↔ (b ∈ t.rows ∧ key b ≠ k) ∨ ∃ a ∈ t.rows, key a = k ∧ f a = b :=
  mem_modify

theorem mem_rows_put : b ∈ (t.put a).rows ↔ b = a ∨ b ∈ t.rows ∧ key b ≠ key a := by
  simp [put, mem_erase]

omit [DecidableEq κ] in
theorem mem_rows_filterMap {f : α → Option α} (hf : ∀ a b, f a = some b → key b = key a) :
    b ∈ (t.filterMap f hf).rows ↔ ∃ a ∈ t.rows, f a = some b :=
  mem_filterMap

theorem get?_filterMap {f : α → Option α} (hf : ∀ a b, f a = some b → key b = key a) (k : κ) :
    (t.filterMap f hf).get? k = (t.get? k).bind f := by
  ext b
  rw [get?_eq_some, mem_rows_filterMap, bind_eq_some_iff]
  constructor
  · rintro ⟨⟨a, ha, hab⟩, rfl⟩
    exact ⟨a, get?_eq_some.mpr ⟨ha, (hf a b hab).symm⟩, hab⟩
  rintro ⟨a, ha, hab⟩
  obtain ⟨hmem, rfl⟩ := get?_eq_some.mp ha
  exact ⟨⟨a, hmem, hab⟩, hf a b hab⟩

variable [AddCommMonoid M]

def sum (t : Table key) (w : α → M) : M := (t.rows.map w).sum

variable {w : α → M}

theorem sum_erase (h : t.get? k = some a) : t.sum w = w a + (t.erase k).sum w :=
  Keyed.sum_erase w t.distinct h

theorem sum_modify (h : t.get? k = some a) (f : α → α) (hf : ∀ a, key (f a) = key a) :
    (t.modify k f hf).sum w + w a = t.sum w + w (f a) :=
  Keyed.sum_modify w t.distinct h f

theorem sum_modify_of_eq (hf : ∀ a, key (f a) = key a) (hw : ∀ a, w (f a) = w a) :
    (t.modify k f hf).sum w = t.sum w := by
  simp only [sum, modify, Keyed.modify, List.map_map]
  refine congrArg List.sum (List.map_congr_left fun a _ => ?_)
  by_cases h : key a = k <;> simp [h, hw]

omit [DecidableEq κ] in
theorem sum_filterMap {f : α → Option α} (hf : ∀ a b, f a = some b → key b = key a)
    (hw : ∀ a ∈ t.rows, ((f a).map w).getD 0 = w a) : (t.filterMap f hf).sum w = t.sum w := by
  obtain ⟨rows, hd⟩ := t
  simp only [sum, filterMap] at hw ⊢
  clear hd
  induction rows with
  | nil => rfl
  | cons a rows ih =>
    have ha := hw a mem_cons_self
    rw [filterMap_cons, map_cons, sum_cons, ← ih fun b hb => hw b (mem_cons_of_mem _ hb), ← ha]
    cases f a with
    | none => simp
    | some b => simp

theorem sum_put (h : t.get? (key a) = none) : (t.put a).sum w = w a + t.sum w := by
  simp [sum, put, erase_of_get?_none h]

theorem sum_put_add : (t.put a).sum w + ((t.get? (key a)).map w).getD 0 = t.sum w + w a := by
  cases h : t.get? (key a) with
  | none =>
    rw [sum_put h, map_none, getD_none, add_zero, add_comm]
  | some b =>
    rw [sum_erase h, map_some, getD_some]
    show (((a :: Keyed.erase key t.rows (key a)).map w).sum) + w b = _
    show w a + (t.erase (key a)).sum w + w b = _
    abel

/-! Counting the rows that pass a test. -/

omit [DecidableEq κ] in
theorem countP_rows_eq_sum (q : α → Bool) (t : Table key) :
    t.rows.countP q = t.sum fun a => if q a then 1 else 0 := by
  unfold sum
  induction t.rows with
  | nil => rfl
  | cons a l ih =>
    rw [countP_cons, map_cons, sum_cons, ih, add_comm]

theorem countP_erase (h : t.get? k = some a) (q : α → Bool) :
    t.rows.countP q = (if q a then 1 else 0) + (t.erase k).rows.countP q := by
  rw [countP_rows_eq_sum, countP_rows_eq_sum, sum_erase h]

theorem countP_put (h : t.get? (key a) = none) (q : α → Bool) :
    (t.put a).rows.countP q = (if q a then 1 else 0) + t.rows.countP q := by
  rw [countP_rows_eq_sum, countP_rows_eq_sum, sum_put h]

theorem countP_modify (h : t.get? k = some a) (f : α → α) (hf : ∀ a, key (f a) = key a)
    (q : α → Bool) : (t.modify k f hf).rows.countP q + (if q a then 1 else 0) =
      t.rows.countP q + (if q (f a) then 1 else 0) := by
  rw [countP_rows_eq_sum, countP_rows_eq_sum]
  exact sum_modify h f hf

theorem countP_modify_of_eq (hf : ∀ a, key (f a) = key a) {q : α → Bool}
    (hq : ∀ a, q (f a) = q a) : (t.modify k f hf).rows.countP q = t.rows.countP q := by
  rw [countP_rows_eq_sum, countP_rows_eq_sum]
  exact sum_modify_of_eq hf fun a => by rw [hq]

end Table
end Lib.Keyed
