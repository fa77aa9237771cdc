/-
# Recursion with fuel

A function whose recursion nothing bounds takes fuel and is `none` when it is used up.  One
result goes on to another if it is the same or was `none` (`Refines`); what is put together from
calls that go on goes on itself, so that more fuel never changes a result.  With that, calls that
each have enough fuel have enough together.
-/

import Mathlib.Data.Option.Basic
import Mathlib.Order.Lattice

namespace Lib

open List Option

universe u

variable {α β : Type u} {a b c : Option α} {f g : α → β → Option α}

/-- What the first gives, the second gives too. -/
def Refines (a b : Option α) : Prop := ∀ x, a = some x → b = some x

theorem Refines.refl (a : Option α) : Refines a a := fun _ h => h

theorem Refines.trans (h : Refines a b) (h' : Refines b c) : Refines a c := fun x hx => h' x (h x hx)

theorem Refines.isSome (h : Refines a b) (ha : a.isSome) : b.isSome := by
  obtain ⟨x, hx⟩ := isSome_iff_exists.mp ha
  rw [h x hx]
  rfl

theorem Refines.bind {k k' : α → Option β} (h : Refines a b) (hk : ∀ x, Refines (k x) (k' x)) :
    Refines (a >>= k) (b >>= k') := by
  intro y hy
  obtain ⟨x, hx, hky⟩ := bind_eq_some_iff.mp hy
  exact bind_eq_some_iff.mpr ⟨x, h x hx, hk x y hky⟩

theorem Refines.map (h : Refines a b) (k : α → β) : Refines (a.map k) (b.map k) := by
  intro y hy
  obtain ⟨x, hx, rfl⟩ := map_eq_some_iff.mp hy
  exact map_eq_some_iff.mpr ⟨x, h x hx, rfl⟩

theorem Refines.foldlM (h : ∀ x y, Refines (f x y) (g x y)) (l : List β) (x : α) :
    Refines (l.foldlM f x) (l.foldlM g x) := by
  induction l generalizing x with
  | nil => exact Refines.refl _
  | cons y l ih =>
    exact Refines.bind (h x y) ih

theorem Refines.of_succ {run : ℕ → Option α} (h : ∀ n, Refines (run n) (run (n + 1))) {n m : ℕ}
    (hle : n ≤ m) : Refines (run n) (run m) := by
  induction hle with
  | refl => exact Refines.refl _
  | step _ ih => exact ih.trans (h _)

/-- **Enough fuel for each step of a loop is enough for the loop.** -/
theorem exists_fuel_foldlM {step : ℕ → α → β → Option α}
    (hmono : ∀ n m, n ≤ m → ∀ x y, Refines (step n x y) (step m x y)) (l : List β)
    (h : ∀ y ∈ l, ∀ x, ∃ n, (step n x y).isSome) (x : α) : ∃ n, (l.foldlM (step n) x).isSome := by
  induction l generalizing x with
  | nil => exact ⟨0, rfl⟩
  | cons y l ih =>
    obtain ⟨n, hn⟩ := h y mem_cons_self x
    obtain ⟨x', hx'⟩ := isSome_iff_exists.mp hn
    obtain ⟨m, hm⟩ := ih (fun z hz => h z (mem_cons_of_mem y hz)) x'
    refine ⟨max n m, ?_⟩
    rw [foldlM_cons, hmono n _ (Nat.le_max_left n m) x y x' hx']
    exact (Refines.foldlM (hmono m _ (Nat.le_max_right n m)) l x').isSome hm

theorem foldlM_eq_none {l : List β} {y : β} (hy : y ∈ l) (h : ∀ x, f x y = none) (x : α) :
    l.foldlM f x = none := by
  induction l generalizing x with
  | nil => cases hy
  | cons z l ih =>
    rw [foldlM_cons]
    rcases mem_cons.mp hy with rfl | hmem
    · rw [h x]
      rfl
    cases hz : f x z with
    | none => rfl
    | some x' => exact ih hmem x'

end Lib
