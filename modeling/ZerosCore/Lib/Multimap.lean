/-
# Multimaps

A `std::multimap` is the list of its elements in the order an iterator meets them.
An element is inserted behind all that have its key or a smaller one.

`pairwise_insert` is the one fact about the order: a relation that the keys and the
order of insertion decide is kept.  `insert_append` says where an element goes when an
iterator splits the map in two.
-/

import Mathlib.Data.List.Perm.Basic
import Mathlib.Order.Lattice

namespace Lib.Multimap

open List

variable {α τ : Type*} [LinearOrder τ] {key : α → τ} {a b : α} {l r : List α}
  {R : α → α → Prop}

/-- `multimap::insert`: at the upper bound of the key. -/
def insert (key : α → τ) (a : α) : List α → List α
  | [] => [a]
  | b :: l => if key b ≤ key a then b :: insert key a l else a :: b :: l

theorem insert_perm : (insert key a l).Perm (a :: l) := by
  induction l with
  | nil => exact List.Perm.refl _
  | cons b l ih =>
    rw [insert]
    split_ifs
    · exact (ih.cons b).trans (Perm.swap a b l)
    · exact List.Perm.refl _

@[simp] theorem mem_insert : b ∈ insert key a l ↔ b = a ∨ b ∈ l := by
  rw [insert_perm.mem_iff, mem_cons]

theorem filter_insert_of_neg {p : α → Bool} (h : ¬ p a = true) :
    (insert key a l).filter p = l.filter p := by
  induction l with
  | nil => exact filter_cons_of_neg h
  | cons b l ih =>
    rw [insert]
    split_ifs
    · rw [filter_cons, filter_cons, ih]
    · exact filter_cons_of_neg h

/-- **Inserting keeps the order**, if the new element comes behind those with its key and
before those with a larger one. -/
theorem pairwise_insert (h : l.Pairwise R) (hle : ∀ b ∈ l, key b ≤ key a → R b a)
    (hlt : ∀ b ∈ l, key a < key b → R a b) (hkey : l.Pairwise fun b c => key b ≤ key c) :
    (insert key a l).Pairwise R := by
  induction l with
  | nil => exact pairwise_singleton R a
  | cons b l ih =>
    obtain ⟨hb, h⟩ := pairwise_cons.mp h
    obtain ⟨hbkey, hkey⟩ := pairwise_cons.mp hkey
    rw [insert]
    split_ifs with hba
    · refine pairwise_cons.mpr ⟨fun c hc => ?_, ih h (fun c hc => hle c (mem_cons_of_mem _ hc))
        (fun c hc => hlt c (mem_cons_of_mem _ hc)) hkey⟩
      rcases mem_insert.mp hc with rfl | hc
      · exact hle b mem_cons_self hba
      · exact hb c hc
    rw [not_le] at hba
    refine pairwise_cons.mpr ⟨fun c hc => ?_, pairwise_cons.mpr ⟨hb, h⟩⟩
    rcases mem_cons.mp hc with rfl | hc'
    · exact hlt c mem_cons_self hba
    · exact hlt c hc (lt_of_lt_of_le hba (hbkey c hc'))

theorem insert_append_of_le (hl : ∀ c ∈ l, key c ≤ key a) :
    insert key a (l ++ r) = l ++ insert key a r := by
  induction l with
  | nil => rfl
  | cons c l ih =>
    rw [cons_append, insert, if_pos (hl c mem_cons_self),
      ih fun d hd => hl d (mem_cons_of_mem _ hd), cons_append]

theorem insert_append_of_lt (hr : ∀ c ∈ r.head?, key a < key c) :
    insert key a (l ++ r) = insert key a l ++ r := by
  induction l with
  | nil =>
    cases r with
    | nil => rfl
    | cons c r =>
      have hc : ¬ key c ≤ key a := not_le.mpr (hr c rfl)
      rw [nil_append, insert, insert, if_neg hc]
      rfl
  | cons c l ih =>
    rw [cons_append, insert, insert]
    split_ifs
    · rw [ih]
      rfl
    · rfl

end Lib.Multimap
