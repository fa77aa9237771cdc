/-
# Queues served when their head is due

Keys wait in a queue, each with the time at which it is due; a time of zero says that a
key does not wait.  The queue is looked at only at its head.  `Exact q time` says that
this is enough: the queue lists exactly the keys that wait, each once, and nobody behind
the head is due before it.  It is kept when a key is appended that is due after all
others, when a key stops waiting, and when the head is served.
-/

import Mathlib.Data.List.Nodup
import Mathlib.Order.Basic

namespace Lib.DueQueue

open List Function

variable {κ : Type*} [DecidableEq κ] {q : List κ} {time : κ → ℕ} {j k : κ}

omit [DecidableEq κ] in
/-- The queue lists the keys that wait, once each and in order of their time. -/
structure Exact (q : List κ) (time : κ → ℕ) : Prop where
  nodup : q.Nodup
  mem : ∀ k, k ∈ q ↔ time k ≠ 0
  sorted : q.Pairwise fun j k => time j ≤ time k

omit [DecidableEq κ] in
theorem Exact.head (h : Exact (k :: q) time) (hj : time j ≠ 0) : time k ≠ 0 ∧ time k ≤ time j := by
  refine ⟨(h.mem k).mp mem_cons_self, ?_⟩
  rcases mem_cons.mp ((h.mem j).mpr hj) with rfl | hj
  · exact Nat.le_refl _
  · exact rel_of_pairwise_cons h.sorted hj

theorem pairwise_update (hk : k ∉ q) (t : ℕ) (h : q.Pairwise fun i j => time i ≤ time j) :
    q.Pairwise fun i j => update time k t i ≤ update time k t j := by
  refine h.imp_of_mem fun {i j} hi hj hij => ?_
  have hik : i ≠ k := fun he => hk (he ▸ hi)
  have hjk : j ≠ k := fun he => hk (he ▸ hj)
  rwa [update_of_ne hik, update_of_ne hjk]

theorem Exact.push (h : Exact q time) (hk : time k = 0) {t : ℕ} (ht : t ≠ 0)
    (hlast : ∀ j, time j ≤ t) : Exact (q ++ [k]) (update time k t) := by
  have hnot : k ∉ q := fun hmem => (h.mem k).mp hmem hk
  refine ⟨nodup_append.mpr ⟨h.nodup, nodup_singleton k, ?_⟩, fun j => ?_, ?_⟩
  · intro a ha b hb
    rw [mem_singleton.mp hb]
    exact fun he => hnot (he ▸ ha)
  · rw [mem_append, mem_singleton]
    by_cases hj : j = k
    · subst hj
      simp [ht]
    rw [update_of_ne hj, h.mem j]
    exact ⟨fun hor => hor.resolve_right hj, Or.inl⟩
  refine pairwise_append.mpr ⟨pairwise_update hnot t h.sorted, pairwise_singleton _ _,
    fun i hi j hj => ?_⟩
  have hik : i ≠ k := fun he => hnot (he ▸ hi)
  rw [mem_singleton.mp hj, update_self, update_of_ne hik]
  exact hlast i

theorem Exact.erase (h : Exact q time) (k : κ) : Exact (q.erase k) (update time k 0) := by
  have hnot : k ∉ q.erase k := h.nodup.not_mem_erase
  refine ⟨h.nodup.erase k, fun j => ?_, pairwise_update hnot 0 (h.sorted.sublist erase_sublist)⟩
  by_cases hj : j = k
  · subst hj
    simp [hnot]
  · rw [mem_erase_of_ne hj, update_of_ne hj, h.mem j]

theorem Exact.tail (h : Exact (k :: q) time) : Exact q (update time k 0) := by
  have := h.erase k
  rwa [erase_cons_head] at this

theorem idxOf_erase_le (hjk : j ≠ k) : (q.erase k).idxOf j ≤ q.idxOf j := by
  induction q with
  | nil => exact Nat.le_refl _
  | cons a q ih =>
    by_cases hak : a = k
    · subst hak
      rw [erase_cons_head, idxOf_cons_ne _ (Ne.symm hjk)]
      exact Nat.le_succ _
    rw [erase_cons_tail (by simpa using hak)]
    by_cases haj : a = j
    · subst haj
      rw [idxOf_cons_self]
      exact Nat.zero_le _
    rw [idxOf_cons_ne _ haj, idxOf_cons_ne _ haj]
    exact Nat.succ_le_succ ih

end Lib.DueQueue
