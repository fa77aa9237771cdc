/-
# Words joined by a separator

A list of words written one after another with a separator between them, as a key made of
several names is.  If no word is empty or holds the separator the words can be read back
(`joined_inj`), and each word is found in the key (`infix_joined`); that a word is found does
not mean that it is one of the words.
-/

import Mathlib.Data.List.Infix

namespace Lib

open List

variable {α : Type*} {sep : α} {w w' : List α} {ws ws' : List (List α)}

/-- The words with the separator between them. -/
def joined (sep : α) : List (List α) → List α
  | [] => []
  | w :: ws => w ++ ws.flatMap fun w => sep :: w

/-- A word that can be told from its neighbours. -/
def Word (sep : α) (w : List α) : Prop := w ≠ [] ∧ sep ∉ w

theorem infix_joined (sep : α) (hw : w ∈ ws) : w <:+: joined sep ws := by
  cases ws with
  | nil => cases hw
  | cons a ws =>
    rcases mem_cons.mp hw with rfl | hmem
    · exact ⟨[], _, rfl⟩
    obtain ⟨before, after, rfl⟩ := append_of_mem hmem
    refine ⟨a ++ (before.flatMap fun w => sep :: w) ++ [sep], after.flatMap fun w => sep :: w, ?_⟩
    simp [joined]

theorem eq_of_append_eq {rest rest' : List α} (hw : sep ∉ w) (hw' : sep ∉ w')
    (hrest : rest = [] ∨ ∃ t, rest = sep :: t) (hrest' : rest' = [] ∨ ∃ t, rest' = sep :: t)
    (h : w ++ rest = w' ++ rest') : w = w' ∧ rest = rest' := by
  induction w generalizing w' with
  | nil =>
    cases w' with
    | nil => exact ⟨rfl, h⟩
    | cons a w' =>
      rcases hrest with rfl | ⟨t, rfl⟩
      · cases h
      rw [nil_append, cons_append, cons.injEq] at h
      exact absurd (h.1 ▸ mem_cons_self) hw'
  | cons a w ih =>
    rw [mem_cons, not_or] at hw
    cases w' with
    | nil =>
      rcases hrest' with rfl | ⟨t, rfl⟩
      · cases h
      rw [nil_append, cons_append, cons.injEq] at h
      exact absurd h.1.symm hw.1
    | cons b w' =>
      rw [mem_cons, not_or] at hw'
      rw [cons_append, cons_append, cons.injEq] at h
      obtain ⟨hsame, hrests⟩ := ih hw.2 hw'.2 h.2
      rw [h.1, hsame]
      exact ⟨rfl, hrests⟩

/-- **The words can be read back.** -/
theorem joined_inj (hws : ∀ w ∈ ws, Word sep w) (hws' : ∀ w ∈ ws', Word sep w)
    (h : joined sep ws = joined sep ws') : ws = ws' := by
  have htail (ws : List (List α)) : (ws.flatMap fun w => sep :: w) = [] ∨
      ∃ t, (ws.flatMap fun w => sep :: w) = sep :: t := by
    cases ws with
    | nil => exact .inl rfl
    | cons w ws => exact .inr ⟨_, rfl⟩
  have hrest (ws ws' : List (List α)) (hws : ∀ w ∈ ws, Word sep w) (hws' : ∀ w ∈ ws', Word sep w)
      (h : (ws.flatMap fun w => sep :: w) = ws'.flatMap fun w => sep :: w) : ws = ws' := by
    induction ws generalizing ws' with
    | nil =>
      cases ws' with
      | nil => rfl
      | cons w' ws' => cases h
    | cons w ws ih =>
      cases ws' with
      | nil => cases h
      | cons w' ws' =>
        rw [flatMap_cons, flatMap_cons, cons_append, cons_append, cons.injEq] at h
        obtain ⟨hsame, hrests⟩ := eq_of_append_eq (hws w mem_cons_self).2
          (hws' w' mem_cons_self).2 (htail ws) (htail ws') h.2
        rw [hsame, ih ws' (fun a ha => hws a (mem_cons_of_mem w ha))
          (fun a ha => hws' a (mem_cons_of_mem w' ha)) hrests]
  cases ws with
  | nil =>
    cases ws' with
    | nil => rfl
    | cons w' ws' =>
      exact absurd (append_eq_nil_iff.mp h.symm).1 (hws' w' mem_cons_self).1
  | cons w ws =>
    cases ws' with
    | nil => exact absurd (append_eq_nil_iff.mp h).1 (hws w mem_cons_self).1
    | cons w' ws' =>
      obtain ⟨hsame, hrests⟩ := eq_of_append_eq (hws w mem_cons_self).2
        (hws' w' mem_cons_self).2 (htail ws) (htail ws') h
      rw [hsame, hrest ws ws' (fun a ha => hws a (mem_cons_of_mem w ha))
        (fun a ha => hws' a (mem_cons_of_mem w' ha)) hrests]

end Lib
