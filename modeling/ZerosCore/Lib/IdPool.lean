/-
# Pools of ids

A pool hands out ids and takes them back: the ids that came back wait in a queue
and are handed out first, and when the queue is empty the largest id handed out so
far grows by one.  The largest id itself does not go to the queue when it comes
back; the maximum shrinks instead.

The maximum is an integer: below the id `0` it is `-1`, which the next id handed out
brings back to `0`, as an unsigned counter that wraps does.

`Owns p live` says that `live` are ids the pool has given away and may get back: they
and the waiting ones are all different and none is above the maximum.  Ids that were
given away and lost are in neither list.
-/

import Mathlib.Data.List.Nodup
import Mathlib.Data.List.Perm.Basic
import Mathlib.Data.Int.Basic

namespace Lib

open List

/-- The largest id so far, and the ids below it that wait. -/
structure IdPool where
  max : ℤ
  free : List ℕ

namespace IdPool

variable {p : IdPool} {i : ℕ} {ids live live' used : List ℕ}

def take (p : IdPool) : ℕ × IdPool :=
  match p.free with
  | [] => ((p.max + 1).toNat, { p with max := p.max + 1 })
  | i :: is => (i, { p with free := is })

/-- Take an id back. -/
def give (p : IdPool) (i : ℕ) : IdPool :=
  if (i : ℤ) = p.max then { p with max := p.max - 1 } else { p with free := p.free ++ [i] }

/-- The largest of the ids in use, `0` if there is none. -/
def maxUsed (used : List ℕ) : ℕ := used.foldl Nat.max 0

/-- The pool of ids of which `used` are in use: those below the largest that are not wait, from
`1` on. -/
def ofUsed (used : List ℕ) : IdPool where
  max := maxUsed used
  free := (List.range' 1 (maxUsed used - 1)).filter fun i => i ∉ used

/-- `live` are given away and not lost. -/
structure Owns (p : IdPool) (live : List ℕ) : Prop where
  nodup : (live ++ p.free).Nodup
  le_max : ∀ i ∈ live ++ p.free, (i : ℤ) ≤ p.max
  neg_one_le : -1 ≤ p.max

section

variable (h : p.Owns live)

include h

theorem Owns.nodup_live : live.Nodup := (nodup_append.mp h.nodup).1

theorem Owns.nodup_free : p.free.Nodup := (nodup_append.mp h.nodup).2.1

theorem Owns.not_mem_free (hi : i ∈ live) : i ∉ p.free := fun hf =>
  (nodup_append.mp h.nodup).2.2 i hi i hf rfl

theorem Owns.perm (hp : live.Perm live') : p.Owns live' where
  nodup := (hp.append_right p.free).nodup_iff.mp h.nodup
  le_max i hi := h.le_max i ((hp.append_right p.free).mem_iff.mpr hi)
  neg_one_le := h.neg_one_le

theorem Owns.sublist (hs : live'.Sublist live) : p.Owns live' where
  nodup := h.nodup.sublist (hs.append_right p.free)
  le_max i hi := h.le_max i ((hs.append_right p.free).subset hi)
  neg_one_le := h.neg_one_le

/-- **The id handed out is new.** -/
theorem Owns.take : p.take.2.Owns (p.take.1 :: live) := by
  have hmin := h.neg_one_le
  unfold IdPool.take
  split
  · rename_i hfree
    have hold : ∀ i ∈ live, (i : ℤ) ≤ p.max := fun i hi =>
      h.le_max i (mem_append_left _ hi)
    refine ⟨?_, fun i hi => ?_, by show -1 ≤ p.max + 1; omega⟩
    · simp only [hfree, append_nil, nodup_cons]
      refine ⟨fun hi => ?_, h.nodup_live⟩
      have := hold _ hi
      omega
    simp only [hfree, append_nil, mem_cons] at hi
    show (i : ℤ) ≤ p.max + 1
    rcases hi with rfl | hi
    · omega
    have := hold i hi
    omega
  rename_i i is hfree
  have hperm : (live ++ p.free).Perm ((i :: live) ++ is) := by
    rw [hfree]
    exact perm_middle
  exact ⟨hperm.nodup_iff.mp h.nodup, fun j hj => h.le_max j (hperm.mem_iff.mpr hj), hmin⟩

end

/-- **An id given back** is not live any more. -/
theorem Owns.give (h : p.Owns (i :: live)) : (p.give i).Owns live := by
  unfold IdPool.give
  split_ifs with hmax
  · refine ⟨?_, fun j hj => ?_, by show -1 ≤ p.max - 1; omega⟩
    · exact (nodup_cons.mp h.nodup).2
    have hj' : (j : ℤ) ≤ p.max := h.le_max j (mem_cons_of_mem i hj)
    have hne : j ≠ i := by
      rintro rfl
      exact (nodup_cons.mp h.nodup).1 hj
    show (j : ℤ) ≤ p.max - 1
    omega
  have hperm : ((i :: live) ++ p.free).Perm (live ++ (p.free ++ [i])) := by
    rw [cons_append, ← append_assoc]
    exact (perm_append_singleton i (live ++ p.free)).symm
  exact ⟨hperm.nodup_iff.mp h.nodup, fun j hj => h.le_max j (hperm.mem_iff.mpr hj), h.neg_one_le⟩

theorem Owns.give_all (h : p.Owns (ids ++ live)) : (ids.foldl IdPool.give p).Owns live := by
  induction ids generalizing p with
  | nil => exact h
  | cons i ids ih => exact ih h.give

theorem le_maxUsed (hi : i ∈ used) : i ≤ maxUsed used := by
  have hmono (l : List ℕ) : ∀ a b, a ≤ b ∨ a ∈ l → a ≤ l.foldl Nat.max b := by
    induction l with
    | nil => simp
    | cons c l ih =>
      intro a b h
      refine ih a _ ?_
      rcases h with h | h
      · exact Or.inl (Nat.le_trans h (Nat.le_max_left b c))
      rcases mem_cons.mp h with rfl | h
      · exact Or.inl (Nat.le_max_right b a)
      · exact Or.inr h
  exact hmono used i 0 (Or.inr hi)

/-- **The pool one starts with** owns the ids in use. -/
theorem owns_ofUsed (h : used.Nodup) : (ofUsed used).Owns used where
  nodup := by
    refine nodup_append.mpr ⟨h, ?_, ?_⟩
    · exact Nodup.filter _ nodup_range'
    rintro a ha b hb rfl
    have := (mem_filter.mp hb).2
    simp [ha] at this
  le_max i hi := by
    show (i : ℤ) ≤ (maxUsed used : ℕ)
    rcases mem_append.mp hi with hi | hi
    · have := le_maxUsed hi
      omega
    have := mem_range'_1.mp (mem_filter.mp hi).1
    omega
  neg_one_le := by
    show (-1 : ℤ) ≤ (maxUsed used : ℕ)
    omega

end IdPool
end Lib
