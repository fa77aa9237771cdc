/-
# Stacks in slots

A store of stackable goods: each slot holds one stack at most, a stack has a kind, a
count and an identity of its own.  Storing goes by a plan, a list of slots and
amounts: an amount is added to the stack in its slot, or becomes a new stack there;
all stacks made but the last are copies with fresh identities, the last one is the
stack that was to be stored (and is gone if it was merged).

`PlanFits` is what a plan must promise.  Under it storing adds the planned amount to
the total of the kind, leaves every stack within its maximum, gives no identity to
two slots (`Tidy`) and leaves the other slots alone.  A plan is found while the stack
to be stored may still be in its slot; `Plan.Sound.fits` carries it over to the store
without that stack.
-/

import ZerosCore.Lib.Keyed

namespace Lib.Stacks

open List Option Keyed.Table

/-- A slot and the stack in it. -/
structure Cell (π α : Type*) where
  pos : π
  stack : α

/-- Stacks: a kind, an identity, a count that can be set, and copies. -/
class Stackable (α : Type*) (κ : outParam Type*) where
  kind : α → κ
  ident : α → ℕ
  count : α → ℕ
  setCount : α → ℕ → α
  clone : ℕ → α → α
  kind_setCount : ∀ a n, kind (setCount a n) = kind a
  ident_setCount : ∀ a n, ident (setCount a n) = ident a
  count_setCount : ∀ a n, count (setCount a n) = n
  kind_clone : ∀ g a, kind (clone g a) = kind a
  ident_clone : ∀ g a, ident (clone g a) = g

open Stackable

attribute [simp] kind_setCount ident_setCount count_setCount kind_clone ident_clone

abbrev Slots (π α : Type*) := Keyed.Table (Cell.pos : Cell π α → π)

variable {π α κ : Type*} [DecidableEq π]

namespace Slots

section Lookup

variable {s : Slots π α} {p q : π} {a : α}

def stackAt (s : Slots π α) (p : π) : Option α := (s.get? p).map Cell.stack

theorem stackAt_eq_some : s.stackAt p = some a ↔ ⟨p, a⟩ ∈ s.rows := by
  rw [stackAt, map_eq_some_iff]
  constructor
  · rintro ⟨⟨q, b⟩, hb, rfl⟩
    obtain ⟨hmem, rfl⟩ := get?_eq_some.mp hb
    exact hmem
  intro h
  exact ⟨⟨p, a⟩, get?_eq_some.mpr ⟨h, rfl⟩, rfl⟩

/-- The store with a stack in a slot, in place of any that was there. -/
def putAt (s : Slots π α) (p : π) (a : α) : Slots π α := s.put ⟨p, a⟩

theorem stackAt_putAt : (s.putAt p a).stackAt q = if q = p then some a else s.stackAt q := by
  rw [stackAt, putAt, get?_put]
  split_ifs <;> rfl

/-- The store with a slot emptied. -/
def eraseAt (s : Slots π α) (p : π) : Slots π α := s.erase p

theorem stackAt_eraseAt : (s.eraseAt p).stackAt q = if q = p then none else s.stackAt q := by
  rw [stackAt, eraseAt, get?_erase]
  split_ifs <;> rfl

variable {c : Cell π α}

theorem mem_rows_eraseAt : c ∈ (s.eraseAt p).rows ↔ c ∈ s.rows ∧ c.pos ≠ p :=
  mem_rows_erase

theorem mem_rows_putAt : c ∈ (s.putAt p a).rows ↔ c = ⟨p, a⟩ ∨ c ∈ s.rows ∧ c.pos ≠ p :=
  mem_rows_put

end Lookup

variable [Stackable α κ] {s s' : Slots π α} {p q : π} {a b : α} {k : κ} {g n : ℕ} {max : κ → ℕ}

/-! ### Totals -/

section Total

variable [DecidableEq κ]

/-- What a stack adds to the total of a kind. -/
def weight (k : κ) (a : α) : ℕ := if kind a = k then count a else 0

/-- How much there is of a kind. -/
def total (s : Slots π α) (k : κ) : ℕ := s.sum fun c => weight k c.stack

theorem total_putAt_none (h : s.stackAt p = none) :
    (s.putAt p a).total k = s.total k + weight k a := by
  have hnone : s.get? p = none := map_eq_none_iff.mp h
  rw [total, putAt, sum_put hnone, add_comm]
  rfl

theorem total_putAt_some (h : s.stackAt p = some b) :
    (s.putAt p a).total k + weight k b = s.total k + weight k a := by
  have hsum := sum_put_add (t := s) (a := ⟨p, a⟩) (w := fun c => weight k c.stack)
  have hget : s.get? p = some ⟨p, b⟩ := get?_eq_some.mpr ⟨stackAt_eq_some.mp h, rfl⟩
  rw [hget] at hsum
  exact hsum

theorem total_eraseAt (h : s.stackAt p = some a) : s.total k = weight k a + (s.eraseAt p).total k :=
  sum_erase (w := fun c : Cell π α => weight k c.stack)
    (get?_eq_some.mpr ⟨stackAt_eq_some.mp h, rfl⟩)

theorem total_take (h : s.stackAt p = some a) (hn : n ≤ count a) :
    (s.putAt p (setCount a (count a - n))).total k + (if kind a = k then n else 0) = s.total k := by
  have h' := total_putAt_some (a := setCount a (count a - n)) (k := k) h
  simp only [weight, kind_setCount, count_setCount] at h'
  split_ifs at h' ⊢ <;> omega

end Total

/-! ### Slots under other names -/

section Rekey

variable {f : π → π} {hf : Function.Involutive f}

/-- The stacks in slots that are called otherwise. -/
def rekey (s : Slots π α) (f : π → π) (hf : Function.Involutive f) : Slots π α where
  rows := s.rows.map fun c => ⟨f c.pos, c.stack⟩
  distinct := by
    have hdistinct : (s.rows.map Cell.pos).Nodup := s.distinct
    have hmap := hdistinct.map hf.injective
    unfold Keyed.Distinct
    rw [List.map_map] at hmap ⊢
    exact hmap

omit [DecidableEq π] [Stackable α κ] in
theorem mem_rows_rekey {c : Cell π α} : c ∈ (s.rekey f hf).rows ↔ ⟨f c.pos, c.stack⟩ ∈ s.rows := by
  constructor
  · intro h
    obtain ⟨d, hd, rfl⟩ := mem_map.mp h
    rw [hf d.pos]
    exact hd
  intro h
  refine mem_map.mpr ⟨⟨f c.pos, c.stack⟩, h, ?_⟩
  rw [hf c.pos]

omit [Stackable α κ] in
theorem stackAt_rekey : (s.rekey f hf).stackAt p = s.stackAt (f p) := by
  refine Option.ext fun a => ?_
  rw [stackAt_eq_some, stackAt_eq_some, mem_rows_rekey]

omit [DecidableEq π] in
theorem total_rekey [DecidableEq κ] : (s.rekey f hf).total k = s.total k := by
  unfold total Keyed.Table.sum rekey
  rw [List.map_map]
  rfl

end Rekey

/-! ### Identities and bounds -/

/-- No stack is above the maximum of its kind. -/
def Bounded (max : κ → ℕ) (s : Slots π α) : Prop :=
  ∀ c ∈ s.rows, count c.stack ≤ max (kind c.stack)

/-- No identity is in two slots. -/
def Apart (s : Slots π α) : Prop :=
  ∀ c ∈ s.rows, ∀ c' ∈ s.rows, ident c.stack = ident c'.stack → c.pos = c'.pos

def Holds (s : Slots π α) (i : ℕ) : Prop := ∃ c ∈ s.rows, ident c.stack = i

variable {i : ℕ}

theorem holds_putAt (h : (s.putAt p a).Holds i) : i = ident a ∨ s.Holds i := by
  obtain ⟨c, hc, hi⟩ := h
  rcases mem_rows_putAt.mp hc with rfl | ⟨hc, -⟩
  · exact .inl hi.symm
  · exact .inr ⟨c, hc, hi⟩

theorem holds_of_stackAt (h : s.stackAt p = some a) : s.Holds (ident a) :=
  ⟨⟨p, a⟩, stackAt_eq_some.mp h, rfl⟩

theorem holds_eraseAt (h : (s.eraseAt p).Holds i) : s.Holds i := by
  obtain ⟨c, hc, hi⟩ := h
  exact ⟨c, (mem_rows_eraseAt.mp hc).1, hi⟩

theorem Bounded.putAt (h : Bounded max s) (ha : count a ≤ max (kind a)) :
    Bounded max (s.putAt p a) := by
  intro c hc
  rcases mem_rows_putAt.mp hc with rfl | ⟨hc, -⟩
  · exact ha
  · exact h c hc

theorem Bounded.eraseAt (h : Bounded max s) : Bounded max (s.eraseAt p) :=
  fun c hc => h c (mem_rows_eraseAt.mp hc).1

variable {f : π → π}

omit [DecidableEq π] in
theorem Bounded.rekey (h : Bounded max s) (hf : Function.Involutive f) :
    Bounded max (s.rekey f hf) := fun c hc => h ⟨f c.pos, c.stack⟩ (mem_rows_rekey.mp hc)

omit [DecidableEq π] in
theorem Apart.rekey (h : s.Apart) (hf : Function.Involutive f) : (s.rekey f hf).Apart := by
  intro c hc c' hc' hi
  have heq := h _ (mem_rows_rekey.mp hc) _ (mem_rows_rekey.mp hc') hi
  exact hf.injective heq

theorem Bounded.of_stackAt (h : Bounded max s) (ha : s.stackAt p = some a) :
    count a ≤ max (kind a) := h ⟨p, a⟩ (stackAt_eq_some.mp ha)

theorem Apart.eraseAt (h : s.Apart) : (s.eraseAt p).Apart :=
  fun c hc c' hc' => h c (mem_rows_eraseAt.mp hc).1 c' (mem_rows_eraseAt.mp hc').1

theorem Apart.putAt_new (h : s.Apart) (hnew : ¬ s.Holds (ident a)) : (s.putAt p a).Apart := by
  intro c hc c' hc' hi
  rcases mem_rows_putAt.mp hc with rfl | ⟨hc, hne⟩
  · rcases mem_rows_putAt.mp hc' with rfl | ⟨hc', -⟩
    · rfl
    · exact (hnew ⟨c', hc', hi.symm⟩).elim
  rcases mem_rows_putAt.mp hc' with rfl | ⟨hc', -⟩
  · exact (hnew ⟨c, hc, hi⟩).elim
  · exact h c hc c' hc' hi

theorem Apart.putAt_same (h : s.Apart) (hb : s.stackAt p = some b) (hi : ident a = ident b) :
    (s.putAt p a).Apart := by
  have hmem := stackAt_eq_some.mp hb
  intro c hc c' hc' heq
  rcases mem_rows_putAt.mp hc with rfl | ⟨hc, hne⟩
  · rcases mem_rows_putAt.mp hc' with rfl | ⟨hc', -⟩
    · rfl
    · exact h _ hmem c' hc' (hi.symm.trans heq)
  rcases mem_rows_putAt.mp hc' with rfl | ⟨hc', -⟩
  · exact (h c hc ⟨p, b⟩ hmem (heq.trans hi) : c.pos = p)
  · exact h c hc c' hc' heq

theorem Apart.not_holds_eraseAt (h : s.Apart) (ha : s.stackAt p = some a) :
    ¬ (s.eraseAt p).Holds (ident a) := by
  rintro ⟨c, hc, hi⟩
  obtain ⟨hc, hne⟩ := mem_rows_eraseAt.mp hc
  exact hne (h c hc ⟨p, a⟩ (stackAt_eq_some.mp ha) hi)

/-! ### Storing by a plan -/

/-- A mark a stack gets in its slot, when it is added to and when it is new there. -/
structure Mark (π α : Type*) {κ : Type*} [Stackable α κ] where
  merged : π → α → α
  placed : π → α → α
  kind_merged : ∀ p a, kind (merged p a) = kind a
  ident_merged : ∀ p a, ident (merged p a) = ident a
  count_merged : ∀ p a, count (merged p a) = count a
  kind_placed : ∀ p a, kind (placed p a) = kind a
  ident_placed : ∀ p a, ident (placed p a) = ident a
  count_placed : ∀ p a, count (placed p a) = count a

attribute [simp] Mark.kind_merged Mark.ident_merged Mark.count_merged Mark.kind_placed
  Mark.ident_placed Mark.count_placed

variable {m : Mark π α}

/-- One entry of a plan: the amount is added to the stack in the slot, or is a new stack.
The number is the next free identity. -/
def storeAt (m : Mark π α) (s : Slots π α) (g : ℕ) (a : α) (p : π) (n : ℕ) (last : Bool) :
    Slots π α × ℕ :=
  match s.stackAt p with
  | some b => (s.putAt p (m.merged p (setCount b (count b + n))), g)
  | none =>
    if last then (s.putAt p (m.placed p (setCount a n)), g)
    else (s.putAt p (m.placed p (setCount (clone g a) n)), g + 1)

/-- A stack is stored by a plan. -/
def store (m : Mark π α) (s : Slots π α) (g : ℕ) (a : α) : List (π × ℕ) → Slots π α × ℕ
  | [] => (s, g)
  | [(p, n)] => s.storeAt m g a p n true
  | (p, n) :: x :: plan =>
    let (s, g) := s.storeAt m g a p n false
    s.store m g a (x :: plan)

/-- The amount fits: on a stack of the kind with room, or as a new stack. -/
def Room (max : κ → ℕ) (s : Slots π α) (a : α) (p : π) (n : ℕ) : Prop :=
  match s.stackAt p with
  | some b => kind b = kind a ∧ count b + n ≤ max (kind a)
  | none => n ≤ max (kind a)

/-- **What a plan must promise**: no slot twice, and every amount fits. -/
structure PlanFits (max : κ → ℕ) (s : Slots π α) (a : α) (plan : List (π × ℕ)) : Prop where
  nodup : (plan.map Prod.fst).Nodup
  room : ∀ x ∈ plan, s.Room max a x.1 x.2

variable {plan : List (π × ℕ)} {last : Bool}

theorem stackAt_storeAt_ne (h : q ≠ p) : (s.storeAt m g a p n last).1.stackAt q = s.stackAt q := by
  unfold storeAt
  split
  · rw [stackAt_putAt, if_neg h]
  · split_ifs <;> rw [stackAt_putAt, if_neg h]

theorem stackAt_store (h : q ∉ plan.map Prod.fst) :
    (s.store m g a plan).1.stackAt q = s.stackAt q := by
  induction plan generalizing s g with
  | nil => rfl
  | cons x plan ih =>
    obtain ⟨p, n⟩ := x
    rw [map_cons, mem_cons, not_or] at h
    cases plan with
    | nil => exact stackAt_storeAt_ne h.1
    | cons y plan => exact (ih h.2).trans (stackAt_storeAt_ne h.1)

theorem Room.storeAt {n' : ℕ} (h : s.Room max a q n') (hne : q ≠ p) :
    (s.storeAt m g a p n last).1.Room max a q n' := by
  unfold Room at h ⊢
  rwa [stackAt_storeAt_ne hne]

theorem PlanFits.tail {x : π × ℕ} (h : s.PlanFits max a (x :: plan)) :
    (s.storeAt m g a x.1 x.2 last).1.PlanFits max a plan := by
  obtain ⟨hx, hnd⟩ := nodup_cons.mp h.nodup
  refine ⟨hnd, fun y hy => (h.room y (mem_cons_of_mem _ hy)).storeAt ?_⟩
  intro heq
  exact hx (heq ▸ mem_map_of_mem hy)

section Total

variable [DecidableEq κ]

theorem total_storeAt (h : s.Room max a p n) :
    (s.storeAt m g a p n last).1.total k = s.total k + if kind a = k then n else 0 := by
  unfold Room at h
  unfold storeAt
  split
  · next b hb =>
      rw [hb] at h
      have hsum := total_putAt_some (a := m.merged p (setCount b (count b + n))) (k := k) hb
      simp only [weight, Mark.kind_merged, Mark.count_merged, kind_setCount, count_setCount,
        h.1] at hsum
      dsimp only
      split_ifs at hsum ⊢ <;> omega
  next hnone =>
    split_ifs with hl hk hk
    all_goals rw [total_putAt_none hnone]; simp [weight, hk]

/-- **Storing adds the planned amount to the total of the kind.** -/
theorem total_store (h : s.PlanFits max a plan) : (s.store m g a plan).1.total k =
    s.total k + if kind a = k then (plan.map Prod.snd).sum else 0 := by
  induction plan generalizing s g with
  | nil => simp [store]
  | cons x plan ih =>
    obtain ⟨p, n⟩ := x
    have hroom := h.room (p, n) mem_cons_self
    cases plan with
    | nil =>
      rw [store, total_storeAt hroom]
      simp
    | cons y plan =>
      refine (ih (s := (s.storeAt m g a p n false).1) h.tail).trans ?_
      rw [total_storeAt hroom]
      simp only [map_cons, sum_cons]
      split_ifs <;> omega

end Total

theorem Bounded.storeAt (h : Bounded max s) (hr : s.Room max a p n) :
    Bounded max (s.storeAt m g a p n last).1 := by
  unfold Room at hr
  unfold Slots.storeAt
  split
  · next b hb =>
      rw [hb] at hr
      exact h.putAt (by simpa [hr.1] using hr.2)
  next hnone =>
    rw [hnone] at hr
    split_ifs <;> exact h.putAt (by simpa using hr)

/-- **Storing keeps every stack within its maximum.** -/
theorem Bounded.store (h : Bounded max s) (hp : s.PlanFits max a plan) :
    Bounded max (s.store m g a plan).1 := by
  induction plan generalizing s g with
  | nil => exact h
  | cons x plan ih =>
    obtain ⟨p, n⟩ := x
    have hroom := hp.room (p, n) mem_cons_self
    cases plan with
    | nil => exact h.storeAt hroom
    | cons y plan => exact ih (h.storeAt hroom) hp.tail

theorem storeAt_ident (p : π) (n : ℕ) (last : Bool) (hs : s.Apart)
    (hbelow : ∀ i, s.Holds i → i < g) (hnew : ¬ s.Holds (ident a)) :
    (s.storeAt m g a p n last).1.Apart ∧ g ≤ (s.storeAt m g a p n last).2 ∧
      ∀ i, (s.storeAt m g a p n last).1.Holds i →
        s.Holds i ∨ (last = true ∧ i = ident a) ∨ (g ≤ i ∧ i < (s.storeAt m g a p n last).2) := by
  unfold storeAt
  split
  · next b hb =>
      have hsame : ident (m.merged p (setCount b (count b + n))) = ident b := by simp
      refine ⟨hs.putAt_same hb hsame, le_refl g, fun i hi => .inl ?_⟩
      rcases holds_putAt hi with rfl | hi
      · rw [hsame]
        exact holds_of_stackAt hb
      · exact hi
  split_ifs with hl
  · have hsame : ident (m.placed p (setCount a n)) = ident a := by simp
    refine ⟨hs.putAt_new (by rwa [hsame]), le_refl g, fun i hi => ?_⟩
    rcases holds_putAt hi with rfl | hi
    · exact .inr (.inl ⟨hl, hsame⟩)
    · exact .inl hi
  have hfresh : ident (m.placed p (setCount (clone g a) n)) = g := by simp
  refine ⟨hs.putAt_new ?_, Nat.le_succ g, fun i hi => ?_⟩
  · rw [hfresh]
    exact fun h => Nat.lt_irrefl g (hbelow g h)
  rcases holds_putAt hi with rfl | hi
  · rw [hfresh]
    exact .inr (.inr ⟨le_refl g, Nat.lt_succ_self g⟩)
  · exact .inl hi

/-- **Storing gives no identity to two slots**: those in the slots afterwards are the ones
from before, the one stored, and fresh ones. -/
theorem store_ident (m : Mark π α) (plan : List (π × ℕ)) (hs : s.Apart)
    (hbelow : ∀ i, s.Holds i → i < g) (ha : ident a < g) (hnew : ¬ s.Holds (ident a)) : (s.store m g a plan).1.Apart ∧ g ≤ (s.store m g a plan).2 ∧
      ∀ i, (s.store m g a plan).1.Holds i →
        s.Holds i ∨ i = ident a ∨ (g ≤ i ∧ i < (s.store m g a plan).2) := by
  induction plan generalizing s g with
  | nil => exact ⟨hs, le_refl g, fun i hi => .inl hi⟩
  | cons x plan ih =>
    obtain ⟨p, n⟩ := x
    cases plan with
    | nil =>
      obtain ⟨h1, h2, h3⟩ := storeAt_ident p n true hs hbelow hnew
      refine ⟨h1, h2, fun i hi => ?_⟩
      rcases h3 i hi with h | ⟨-, h⟩ | h
      · exact .inl h
      · exact .inr (.inl h)
      · exact .inr (.inr h)
    | cons y plan =>
      obtain ⟨h1, h2, h3⟩ := storeAt_ident p n false hs hbelow hnew
      have hbelow' : ∀ i, (s.storeAt m g a p n false).1.Holds i →
          i < (s.storeAt m g a p n false).2 := by
        intro i hi
        rcases h3 i hi with h | ⟨h, -⟩ | h
        · exact lt_of_lt_of_le (hbelow i h) h2
        · cases h
        · exact h.2
      have hnew' : ¬ (s.storeAt m g a p n false).1.Holds (ident a) := by
        intro hi
        rcases h3 _ hi with h | ⟨h, -⟩ | h
        · exact hnew h
        · cases h
        · exact Nat.lt_irrefl _ (lt_of_lt_of_le ha h.1)
      obtain ⟨k1, k2, k3⟩ := ih h1 hbelow' (lt_of_lt_of_le ha h2) hnew'
      refine ⟨k1, h2.trans k2, fun i hi => ?_⟩
      rcases k3 i hi with h | h | h
      · rcases h3 i h with h | ⟨h, -⟩ | h
        · exact .inl h
        · cases h
        · exact .inr (.inr ⟨h.1, lt_of_lt_of_le h.2 k2⟩)
      · exact .inr (.inl h)
      · exact .inr (.inr ⟨h2.trans h.1, h.2⟩)

theorem kind_stackAt_storeAt (m : Mark π α) (g : ℕ) (a : α) (p : π) (n : ℕ) (last : Bool)
    (h : s.stackAt q = some b) :
    ∃ b', (s.storeAt m g a p n last).1.stackAt q = some b' ∧ kind b' = kind b ∧
      count b ≤ count b' := by
  by_cases hqp : q = p
  · subst hqp
    refine ⟨m.merged q (setCount b (count b + n)), ?_, by simp, by simp⟩
    unfold storeAt
    rw [h]
    exact stackAt_putAt.trans (if_pos rfl)
  · exact ⟨b, (stackAt_storeAt_ne hqp).trans h, rfl, le_refl _⟩

theorem kind_stackAt_store (h : s.stackAt q = some b) :
    ∃ b', (s.store m g a plan).1.stackAt q = some b' ∧ kind b' = kind b ∧ count b ≤ count b' := by
  induction plan generalizing s g b with
  | nil => exact ⟨b, h, rfl, le_refl _⟩
  | cons x plan ih =>
    obtain ⟨p, n⟩ := x
    cases plan with
    | nil => exact kind_stackAt_storeAt m g a p n true h
    | cons y plan =>
      obtain ⟨b1, hb1, hk1, hc1⟩ := kind_stackAt_storeAt m g a p n false h
      obtain ⟨b2, hb2, hk2, hc2⟩ := ih (g := (s.storeAt m g a p n false).2) hb1
      exact ⟨b2, hb2, hk2.trans hk1, hc1.trans hc2⟩

/-! ### Tidy stores -/

/-- **A tidy store**: no stack above its maximum, no identity in two slots, and `g` and all that
follow are free. -/
structure Tidy (max : κ → ℕ) (s : Slots π α) (g : ℕ) : Prop where
  bounded : Bounded max s
  apart : s.Apart
  fresh : ∀ i, s.Holds i → i < g

omit [DecidableEq π] in
theorem Tidy.mono {g' : ℕ} (h : s.Tidy max g) (hg : g ≤ g') : s.Tidy max g' :=
  ⟨h.bounded, h.apart, fun i hi => lt_of_lt_of_le (h.fresh i hi) hg⟩

theorem Tidy.eraseAt (h : s.Tidy max g) : (s.eraseAt p).Tidy max g :=
  ⟨h.bounded.eraseAt, h.apart.eraseAt, fun i hi => h.fresh i (holds_eraseAt hi)⟩

theorem Tidy.shrink (h : s.Tidy max g) (ha : s.stackAt p = some a) (hn : n ≤ count a) :
    (s.putAt p (setCount a n)).Tidy max g where
  bounded := h.bounded.putAt (by
    rw [count_setCount, kind_setCount]
    exact hn.trans (h.bounded.of_stackAt ha))
  apart := h.apart.putAt_same ha (ident_setCount a n)
  fresh i hi := by
    rcases holds_putAt hi with rfl | hi
    · rw [ident_setCount]
      exact h.fresh _ (holds_of_stackAt ha)
    · exact h.fresh i hi

/-- **Storing by a plan that fits keeps a store tidy.** -/
theorem Tidy.store (h : s.Tidy max g) (hp : s.PlanFits max a plan) (ha : ident a < g)
    (hnew : ¬ s.Holds (ident a)) : (s.store m g a plan).1.Tidy max (s.store m g a plan).2 := by
  obtain ⟨hapart, hle, hholds⟩ := store_ident m plan h.apart h.fresh ha hnew
  refine ⟨h.bounded.store hp, hapart, fun i hi => ?_⟩
  rcases hholds i hi with hi | rfl | hi
  · exact lt_of_lt_of_le (h.fresh i hi) hle
  · exact lt_of_lt_of_le ha hle
  · exact hi.2

theorem not_holds_store (h : s.Tidy max g) (ha : ident a < g) (hnew : ¬ s.Holds (ident a))
    (hi : ¬ s.Holds i) (hne : i ≠ ident a) (hlt : i < g) : ¬ (s.store m g a plan).1.Holds i := by
  obtain ⟨-, -, hholds⟩ := store_ident m plan h.apart h.fresh ha hnew
  intro hi'
  rcases hholds i hi' with h' | h' | h'
  · exact hi h'
  · exact hne h'
  · exact absurd hlt (not_lt.mpr h'.1)

theorem PlanFits.of_stackAt_eq (h : s.PlanFits max a plan)
    (heq : ∀ q ∈ plan.map Prod.fst, s'.stackAt q = s.stackAt q) : s'.PlanFits max a plan := by
  refine ⟨h.nodup, fun x hx => ?_⟩
  have hroom := h.room x hx
  unfold Room at hroom ⊢
  rwa [heq x.1 (mem_map_of_mem hx)]

/-! ### Asking for room -/

/-- A slot takes the amount once the stack itself and the one it is swapped with are gone:
`target` is the slot of the latter. -/
def Takes (max : κ → ℕ) (s : Slots π α) (target : Option π) (a : α) (p : π) (n : ℕ) : Prop :=
  n ≤ max (kind a) ∧ ∀ b, s.stackAt p = some b → ident b ≠ ident a →
    target = some p ∨ kind b = kind a ∧ count b + n ≤ max (kind a)

end Slots

/-! ### Making a plan -/

/-- A plan in the making: the slots found so far, and how much is left to place. -/
structure Plan (π : Type*) where
  dest : List (π × ℕ) := []
  count : ℕ

namespace Plan

variable {pl : Plan π} {p : π} {T : π → ℕ → Prop} {space total : ℕ}

/-- A slot takes what it has space for. -/
def push (pl : Plan π) (p : π) (space : ℕ) : Plan π :=
  { dest := pl.dest ++ [(p, min space pl.count)], count := pl.count - min space pl.count }

/-- A slot is added, if it is not in the plan yet. -/
def add (pl : Plan π) (p : π) (space : ℕ) : Plan π :=
  if p ∈ pl.dest.map Prod.fst then pl else pl.push p space

/-- **A sound plan** for `total`: no slot twice, the amounts found and the amount left make
up the total, and every slot takes its amount. -/
structure Sound (T : π → ℕ → Prop) (total : ℕ) (pl : Plan π) : Prop where
  nodup : (pl.dest.map Prod.fst).Nodup
  sum : (pl.dest.map Prod.snd).sum + pl.count = total
  takes : ∀ x ∈ pl.dest, T x.1 x.2

omit [DecidableEq π] in
theorem sound_start (T : π → ℕ → Prop) (total : ℕ) : Sound T total { count := total } where
  nodup := nodup_nil
  sum := Nat.zero_add total
  takes x hx := by cases hx

omit [DecidableEq π] in
theorem Sound.push (h : Sound T total pl) (hp : p ∉ pl.dest.map Prod.fst)
    (hT : ∀ n ≤ space, T p n) : Sound T total (pl.push p space) where
  nodup := by
    rw [Plan.push, map_append, nodup_append]
    refine ⟨h.nodup, nodup_singleton _, ?_⟩
    rintro a ha b hb rfl
    rw [map_singleton, mem_singleton] at hb
    rw [hb] at ha
    exact hp ha
  sum := by
    have := h.sum
    simp only [Plan.push, map_append, sum_append, map_cons, map_nil, sum_cons, sum_nil]
    omega
  takes := by
    intro x hx
    rw [Plan.push, mem_append, mem_singleton] at hx
    rcases hx with hx | rfl
    · exact h.takes x hx
    · exact hT _ (min_le_left _ _)

theorem Sound.add (h : Sound T total pl) (hT : ∀ n ≤ space, T p n) :
    Sound T total (pl.add p space) := by
  unfold Plan.add
  split_ifs with hmem
  · exact h
  · exact h.push hmem hT

omit [DecidableEq π] in
theorem Sound.imp {T' : π → ℕ → Prop} (h : Sound T total pl) (hT : ∀ p n, T p n → T' p n) :
    Sound T' total pl :=
  ⟨h.nodup, h.sum, fun x hx => hT x.1 x.2 (h.takes x hx)⟩

variable [Stackable α κ] {max : κ → ℕ} {s s' : Slots π α} {target : Option π} {a : α}

/-- **A sound plan can be carried out** in slots where the stack itself and the swapped one are
gone and no other stack has grown. -/
theorem Sound.fits (h : Sound (s.Takes max target a) total pl)
    (hs : ∀ p b, s'.stackAt p = some b → target ≠ some p ∧
      ∃ b', s.stackAt p = some b' ∧ ident b' ≠ ident a ∧ kind b = kind b' ∧
        Stackable.count b ≤ Stackable.count b') : s'.PlanFits max a pl.dest := by
  refine ⟨h.nodup, fun x hx => ?_⟩
  obtain ⟨hle, hroom⟩ := h.takes x hx
  unfold Slots.Room
  split
  · next b hb =>
      obtain ⟨htarget, b', hb', hi, hk, hc⟩ := hs x.1 b hb
      rcases hroom b' hb' hi with h | ⟨hk', hc'⟩
      · exact (htarget h).elim
      · exact ⟨hk.trans hk', (Nat.add_le_add_right hc _).trans hc'⟩
  · exact hle

end Plan

/-! ### Moves

A stack, or a part of it, leaves its slot and is stored by a plan that was found while it was
there.  The total of every kind stays the same and the store stays tidy. -/

namespace Slots

variable [DecidableEq κ] [Stackable α κ] {s : Slots π α} {m m' : Mark π α} {g : ℕ} {max : κ → ℕ}
  {p q : π} {a b : α} {plan back : List (π × ℕ)}

omit [DecidableEq κ] in
theorem Apart.of_stackAt_eraseAt (h : s.Apart) (ha : s.stackAt p = some a)
    (hb : (s.eraseAt p).stackAt q = some b) : q ≠ p ∧ s.stackAt q = some b ∧ ident b ≠ ident a := by
  rw [stackAt_eraseAt] at hb
  split_ifs at hb with hqp
  refine ⟨hqp, hb, fun hi => hqp ?_⟩
  exact h ⟨q, b⟩ (stackAt_eq_some.mp hb) ⟨p, a⟩ (stackAt_eq_some.mp ha) hi

/-- **A whole stack moves.** -/
theorem Tidy.moveWhole (h : s.Tidy max g) (ha : s.stackAt p = some a)
    (hp : Plan.Sound (s.Takes max none a) (count a) { dest := plan, count := 0 }) :
    ((s.eraseAt p).store m g a plan).1.Tidy max ((s.eraseAt p).store m g a plan).2 ∧
      ∀ k, ((s.eraseAt p).store m g a plan).1.total k = s.total k := by
  have hfits : (s.eraseAt p).PlanFits max a plan := by
    refine hp.fits fun r b hb => ?_
    obtain ⟨-, hr, hi⟩ := h.apart.of_stackAt_eraseAt ha hb
    exact ⟨by simp, b, hr, hi, rfl, le_refl _⟩
  refine ⟨h.eraseAt.store hfits (h.fresh _ (holds_of_stackAt ha)) (h.apart.not_holds_eraseAt ha),
    fun k => ?_⟩
  have hsum : (plan.map Prod.snd).sum = count a := hp.sum
  rw [total_store hfits, total_eraseAt ha, hsum, weight, add_comm]

/-- **A part of a stack moves**, as a new stack. -/
theorem Tidy.moveSplit (h : s.Tidy max g) (ha : s.stackAt p = some a) (hk : kind b = kind a)
    (hi : ident b = g) (hc : count b ≤ count a)
    (hp : Plan.Sound (s.Takes max none b) (count b) { dest := plan, count := 0 }) :
    ((s.putAt p (setCount a (count a - count b))).store m (g + 1) b plan).1.Tidy max
        ((s.putAt p (setCount a (count a - count b))).store m (g + 1) b plan).2 ∧
      ∀ k, ((s.putAt p (setCount a (count a - count b))).store m (g + 1) b plan).1.total k =
        s.total k := by
  have hnew : ∀ {r : π} {c : α}, s.stackAt r = some c → ident c ≠ ident b := by
    intro r c hr heq
    have := h.fresh _ (holds_of_stackAt hr)
    omega
  have hless : (s.putAt p (setCount a (count a - count b))).Tidy max g :=
    h.shrink ha (Nat.sub_le _ _)
  have hfits : (s.putAt p (setCount a (count a - count b))).PlanFits max b plan := by
    refine hp.fits fun r c hr => ⟨by simp, ?_⟩
    rw [stackAt_putAt] at hr
    split_ifs at hr with hrp
    · obtain rfl := some.inj hr
      exact ⟨a, hrp ▸ ha, hnew ha, by simp, by simp⟩
    · exact ⟨c, hr, hnew hr, rfl, le_refl _⟩
  refine ⟨(hless.mono (Nat.le_succ g)).store hfits (by omega) ?_, fun k => ?_⟩
  · intro hb
    have := hless.fresh _ hb
    omega
  have hsum : (plan.map Prod.snd).sum = count b := hp.sum
  rw [total_store hfits, hsum, hk]
  exact total_take ha hc

/-- **Two stacks are swapped**, by plans that have no slot in common. -/
theorem Tidy.moveSwap (h : s.Tidy max g) (ha : s.stackAt p = some a) (hb : s.stackAt q = some b)
    (hne : p ≠ q) (hp : Plan.Sound (s.Takes max (some q) a) (count a) { dest := plan, count := 0 })
    (hq : Plan.Sound (s.Takes max (some p) b) (count b) { dest := back, count := 0 })
    (hdisj : ∀ x ∈ back.map Prod.fst, x ∉ plan.map Prod.fst)
    {t t' : Slots π α × ℕ} (ht : t = ((s.eraseAt p).eraseAt q).store m g a plan)
    (ht' : t' = t.1.store m' t.2 b back) : t'.1.Tidy max t'.2 ∧ ∀ k, t'.1.total k = s.total k := by
  have hbp : (s.eraseAt p).stackAt q = some b := by
    rw [stackAt_eraseAt, if_neg hne.symm, hb]
  have hident : ident b ≠ ident a := (h.apart.of_stackAt_eraseAt ha hbp).2.2
  -- what is in a slot once both stacks are out
  have hrest : ∀ {r : π} {c : α}, ((s.eraseAt p).eraseAt q).stackAt r = some c →
      r ≠ p ∧ r ≠ q ∧ s.stackAt r = some c ∧ ident c ≠ ident a ∧ ident c ≠ ident b := by
    intro r c hr
    obtain ⟨hrq, hr', hib⟩ := h.apart.eraseAt.of_stackAt_eraseAt hbp hr
    obtain ⟨hrp, hr'', hia⟩ := h.apart.of_stackAt_eraseAt ha hr'
    exact ⟨hrp, hrq, hr'', hia, hib⟩
  have hfits : ((s.eraseAt p).eraseAt q).PlanFits max a plan := by
    refine hp.fits fun r c hr => ?_
    obtain ⟨-, hrq, hr', hia, -⟩ := hrest hr
    exact ⟨fun heq => hrq (some.inj heq).symm, c, hr', hia, rfl, le_refl _⟩
  have hfits' : ((s.eraseAt p).eraseAt q).PlanFits max b back := by
    refine hq.fits fun r c hr => ?_
    obtain ⟨hrp, -, hr', -, hib⟩ := hrest hr
    exact ⟨fun heq => hrp (some.inj heq).symm, c, hr', hib, rfl, le_refl _⟩
  have hout : ((s.eraseAt p).eraseAt q).Tidy max g := h.eraseAt.eraseAt
  have hlta := h.fresh _ (holds_of_stackAt ha)
  have hltb := h.fresh _ (holds_of_stackAt hb)
  have hnota : ¬ ((s.eraseAt p).eraseAt q).Holds (ident a) :=
    fun hi => h.apart.not_holds_eraseAt ha (holds_eraseAt hi)
  have hnotb : ¬ ((s.eraseAt p).eraseAt q).Holds (ident b) := h.apart.eraseAt.not_holds_eraseAt hbp
  have hfst : t.1.Tidy max t.2 := ht ▸ hout.store hfits hlta hnota
  have hsnd : t.1.PlanFits max b back := by
    refine hfits'.of_stackAt_eq fun r hr => ?_
    rw [ht]
    exact stackAt_store (hdisj r hr)
  have hle : g ≤ t.2 := by
    rw [ht]
    exact (store_ident m plan hout.apart hout.fresh hlta hnota).2.1
  have hnotb' : ¬ t.1.Holds (ident b) := by
    rw [ht]
    exact not_holds_store hout hlta hnota hnotb hident hltb
  refine ⟨ht' ▸ hfst.store hsnd (lt_of_lt_of_le hltb hle) hnotb', fun k => ?_⟩
  have hsum : (plan.map Prod.snd).sum = count a := hp.sum
  have hsum' : (back.map Prod.snd).sum = count b := hq.sum
  rw [ht', total_store hsnd, ht, total_store hfits, total_eraseAt ha, total_eraseAt hbp, hsum, hsum',
    weight, weight]
  omega

end Slots
end Lib.Stacks
