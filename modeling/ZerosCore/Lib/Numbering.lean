/-
# New numbers for old names

Two ways a reader gives new numbers to the names it meets.  `register` looks the name up in a
table and takes the next number for a name that is not there; `numberRuns` remembers the last
name alone and takes the next number whenever the name changes.

`OneToOne pairs` says that the pairs of old and new are one injective function.  A table kept by
`register` always is one (`Numbered.oneToOne`); what `numberRuns` gives is one just when no name
comes back after another (`oneToOne_numberRuns`).
-/

import Mathlib.Data.List.Lookmap
import Mathlib.Data.List.Nodup
import Mathlib.Data.List.Range

namespace Lib.Numbering

open List Option

variable {α : Type*}

/-- The pairs are one function, and it is injective. -/
def OneToOne (pairs : List (α × ℕ)) : Prop :=
  ∀ p ∈ pairs, ∀ q ∈ pairs, p.1 = q.1 ↔ p.2 = q.2

theorem OneToOne.of_subset {pairs pairs' : List (α × ℕ)} (h : OneToOne pairs')
    (hsub : pairs ⊆ pairs') : OneToOne pairs :=
  fun p hp q hq => h p (hsub hp) q (hsub hq)

/-! ### A table of names -/

variable {hi : ℕ} {m : List (α × ℕ)}

/-- Distinct names, numbered in order from `hi`. -/
structure Numbered (hi : ℕ) (m : List (α × ℕ)) : Prop where
  nodup : (m.map Prod.fst).Nodup
  values : m.map Prod.snd = List.range' hi m.length

theorem numbered_nil (hi : ℕ) : Numbered hi ([] : List (α × ℕ)) := ⟨nodup_nil, rfl⟩

/-- **A table of names is one injective function.** -/
theorem Numbered.oneToOne (h : Numbered hi m) : OneToOne m := by
  have hsnd : (m.map Prod.snd).Nodup := by
    rw [h.values]
    exact nodup_range'
  intro p hp q hq
  constructor
  · intro heq
    rw [inj_on_of_nodup_map h.nodup hp hq heq]
  intro heq
  rw [inj_on_of_nodup_map hsnd hp hq heq]

theorem Numbered.le_of_mem (h : Numbered hi m) {p : α × ℕ} (hp : p ∈ m) : hi ≤ p.2 := by
  have hmem : p.2 ∈ m.map Prod.snd := mem_map.2 ⟨p, hp, rfl⟩
  rw [h.values, mem_range'] at hmem
  obtain ⟨i, -, hi'⟩ := hmem
  omega

variable [DecidableEq α] {a : α}

/-- The number of `a`, taken from the table or put into it. -/
def register (hi : ℕ) (m : List (α × ℕ)) (a : α) : List (α × ℕ) × ℕ :=
  match m.lookup a with
  | some n => (m, n)
  | none => (m ++ [(a, hi + m.length)], hi + m.length)

theorem mem_of_lookup {n : ℕ} (h : m.lookup a = some n) : (a, n) ∈ m := by
  obtain ⟨l1, l2, rfl, -⟩ := lookup_eq_some_iff.mp h
  exact mem_append_right _ mem_cons_self

theorem notMem_of_lookup (h : m.lookup a = none) : a ∉ m.map Prod.fst := by
  intro hmem
  obtain ⟨p, hp, rfl⟩ := mem_map.mp hmem
  simpa using lookup_eq_none_iff.mp h p hp

theorem exists_lookup {n : ℕ} (h : (a, n) ∈ m) : ∃ k, m.lookup a = some k := by
  cases hl : m.lookup a with
  | some k => exact ⟨k, rfl⟩
  | none => exact absurd (mem_map.2 ⟨_, h, rfl⟩) (notMem_of_lookup hl)

theorem mem_register : (a, (register hi m a).2) ∈ (register hi m a).1 := by
  unfold register
  split
  · rename_i n hn
    exact mem_of_lookup hn
  · simp

theorem subset_register : m ⊆ (register hi m a).1 := by
  unfold register
  split
  · exact Subset.refl _
  · exact subset_append_left _ _

theorem Numbered.register (h : Numbered hi m) : Numbered hi (register hi m a).1 := by
  unfold Numbering.register
  split
  · exact h
  rename_i hnone
  constructor
  · rw [map_append, nodup_append]
    refine ⟨h.nodup, nodup_singleton _, fun b hb c hc heq => ?_⟩
    rw [map_singleton, mem_singleton] at hc
    rw [heq, hc] at hb
    exact notMem_of_lookup hnone hb
  rw [map_append, h.values, length_append, length_singleton, range'_concat]
  simp

/-! ### Runs of one name -/

/-- The number and the counter for `a`, after the name `last`. -/
def nextRun (last : Option α) (new ctr : ℕ) (a : α) : ℕ × ℕ :=
  if last = none ∨ last = some a then (new, ctr) else (ctr + 1, ctr + 1)

/-- The names, each with a number that is taken again while the name stays. -/
def numberRuns : Option α → ℕ → ℕ → List α → List (α × ℕ)
  | _, _, _, [] => []
  | last, new, ctr, a :: as =>
    (a, (nextRun last new ctr a).1) ::
      numberRuns (some a) (nextRun last new ctr a).1 (nextRun last new ctr a).2 as

/-- No name comes back after another. -/
def Grouped : List α → Prop
  | a :: b :: l => (a = b ∨ a ∉ b :: l) ∧ Grouped (b :: l)
  | _ => True

instance instDecidableGrouped : ∀ l : List α, Decidable (Grouped l)
  | [] => .isTrue trivial
  | [_] => .isTrue trivial
  | a :: b :: l =>
    have := instDecidableGrouped (b :: l)
    inferInstanceAs (Decidable ((a = b ∨ a ∉ b :: l) ∧ Grouped (b :: l)))

theorem map_fst_numberRuns (last : Option α) (new ctr : ℕ) (as : List α) :
    (numberRuns last new ctr as).map Prod.fst = as := by
  induction as generalizing last new ctr with
  | nil => rfl
  | cons a as ih => rw [numberRuns, map_cons, ih]

theorem numberRuns_some {a : α} {new ctr : ℕ} (hle : new ≤ ctr) {as : List α} :
    ∀ p ∈ numberRuns (some a) new ctr as, p = (a, new) ∨ ctr < p.2 := by
  induction as generalizing a new ctr with
  | nil => simp [numberRuns]
  | cons b as ih =>
    intro p hp
    rw [numberRuns] at hp
    by_cases hab : a = b
    · subst hab
      have hrun : nextRun (some a) new ctr a = (new, ctr) := by simp [nextRun]
      rw [hrun] at hp
      rcases mem_cons.1 hp with rfl | hp
      · exact .inl rfl
      · exact ih hle p hp
    have hrun : nextRun (some a) new ctr b = (ctr + 1, ctr + 1) := by simp [nextRun, hab]
    rw [hrun] at hp
    rcases mem_cons.1 hp with rfl | hp
    · exact .inr (Nat.lt_succ_self _)
    rcases ih (Nat.le_refl _) p hp with rfl | hlt
    · exact .inr (Nat.lt_succ_self _)
    · exact .inr (by omega)

/-- **Runs are one injective function just when no name comes back.** -/
theorem oneToOne_numberRuns {last : Option α} {new ctr : ℕ} (hle : new ≤ ctr) (as : List α) :
    OneToOne (numberRuns last new ctr as) ↔ Grouped as := by
  induction as generalizing last new ctr with
  | nil => simp [numberRuns, OneToOne, Grouped]
  | cons a as ih =>
    rw [numberRuns]
    have hle' : (nextRun last new ctr a).1 ≤ (nextRun last new ctr a).2 := by
      unfold nextRun
      split_ifs
      · exact hle
      · exact Nat.le_refl _
    generalize (nextRun last new ctr a).1 = n at hle' ⊢
    generalize (nextRun last new ctr a).2 = k at hle' ⊢
    specialize @ih (some a) n k hle'
    cases as with
    | nil => simp [numberRuns, OneToOne, Grouped]
    | cons b as =>
      rw [Grouped, ← ih]
      by_cases hab : a = b
      · subst hab
        -- the pair is the first of the rest again
        have hmem : (a, n) ∈ numberRuns (some a) n k (a :: as) := by
          simp [numberRuns, nextRun]
        refine ⟨fun h => ⟨.inl rfl, h.of_subset (subset_cons_self _ _)⟩, fun h => ?_⟩
        refine h.2.of_subset (cons_subset.2 ⟨hmem, Subset.refl _⟩)
      have hnew : ∀ p ∈ numberRuns (some a) n k (b :: as), k < p.2 := by
        intro p hp
        have hrun : nextRun (some a) n k b = (k + 1, k + 1) := by simp [nextRun, hab]
        rw [numberRuns, hrun] at hp
        rcases mem_cons.1 hp with rfl | hp
        · exact Nat.lt_succ_self _
        rcases numberRuns_some (Nat.le_refl _) p hp with rfl | hlt
        · exact Nat.lt_succ_self _
        · omega
      have hnames := map_fst_numberRuns (some a) n k (b :: as)
      constructor
      · intro h
        refine ⟨.inr fun hmem => ?_, h.of_subset (subset_cons_self _ _)⟩
        rw [← hnames] at hmem
        obtain ⟨p, hp, hpa⟩ := mem_map.1 hmem
        have heq := (h (a, n) mem_cons_self p (mem_cons_of_mem _ hp)).1 hpa.symm
        have := hnew p hp
        omega
      rintro ⟨hab' | hnot, h⟩
      · exact absurd hab' hab
      have hfirst : ∀ p ∈ numberRuns (some a) n k (b :: as), a ≠ p.1 ∧ n ≠ p.2 := by
        intro p hp
        refine ⟨fun hpa => hnot ?_, ?_⟩
        · have hmem : p.1 ∈ (numberRuns (some a) n k (b :: as)).map Prod.fst :=
            mem_map.2 ⟨p, hp, rfl⟩
          rwa [hnames, ← hpa] at hmem
        have := hnew p hp
        omega
      intro p hp q hq
      rcases mem_cons.1 hp with rfl | hp
      · rcases mem_cons.1 hq with rfl | hq
        · simp
        · exact iff_of_false (hfirst q hq).1 (hfirst q hq).2
      rcases mem_cons.1 hq with rfl | hq
      · exact iff_of_false (hfirst p hp).1.symm (hfirst p hp).2.symm
      · exact h p hp q hq

end Lib.Numbering
