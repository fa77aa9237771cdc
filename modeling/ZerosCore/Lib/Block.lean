/-
# Message blocks

A message block is a buffer of fixed size with a place to read from and a place
to write to.  What lies between the two is its contents: it is written at the
end and read from the front.  The order of the two places and the size of the
buffer are part of the type, so that a block outside its buffer cannot be
built; an operation that would leave the buffer gives `none`.

The operations are those of a message block of a socket library: `copy` writes
at the end, `advance` gives up what was read, `reset` empties the block,
`crunch` moves the contents to the start of the buffer to make space behind
them.  Each of them is described by what it does to `contents`, `size` and
`space`; nothing else is needed of a block.
-/

import Mathlib.Data.List.Basic

namespace Lib

open List

/-- A buffer with a read and a write position. -/
structure Block (α : Type*) where
  base : List α
  rd : ℕ
  wr : ℕ
  rd_le : rd ≤ wr
  wr_le : wr ≤ base.length

namespace Block

variable {α : Type*}

/-- An empty block over a buffer. -/
def ofBase (base : List α) : Block α := ⟨base, 0, 0, Nat.le_refl _, Nat.zero_le _⟩

variable (b : Block α)

def size : ℕ := b.base.length

/-- How much there is to read. -/
def length : ℕ := b.wr - b.rd

/-- How much can still be written. -/
def space : ℕ := b.size - b.wr

/-- What there is to read. -/
def contents : List α := (b.base.take b.wr).drop b.rd

/-- Writes at the end, if there is space. -/
def copy (as : List α) : Option (Block α) :=
  if h : as.length ≤ b.space then
    some
      { base := b.base.take b.wr ++ (as ++ b.base.drop (b.wr + as.length)), rd := b.rd
        wr := b.wr + as.length
        rd_le := Nat.le_trans b.rd_le (Nat.le_add_right _ _)
        wr_le := by
          have hwr := b.wr_le
          unfold space size at h
          simp only [List.length_append, List.length_take, List.length_drop]
          omega }
  else none

/-- Gives up the first `n` elements, if there are so many. -/
def advance (n : ℕ) : Option (Block α) :=
  if h : n ≤ b.length then
    some
      { b with
        rd := b.rd + n
        rd_le := by
          have hrd := b.rd_le
          unfold length at h
          omega }
  else none

def reset : Block α := ⟨b.base, 0, 0, Nat.le_refl _, Nat.zero_le _⟩

/-- Moves the contents to the start of the buffer. -/
def crunch : Block α where
  base := b.contents ++ b.base.drop b.length
  rd := 0
  wr := b.length
  rd_le := Nat.zero_le _
  wr_le := by
    have hwr := b.wr_le
    unfold contents length
    simp only [List.length_append, List.length_take, List.length_drop]
    omega

@[simp] theorem length_contents : b.contents.length = b.length := by
  have hwr := b.wr_le
  unfold contents length
  rw [length_drop, length_take]
  omega

theorem length_add_space : b.rd + b.length + b.space = b.size := by
  have hrd := b.rd_le
  have hwr := b.wr_le
  unfold length space size
  omega

@[simp] theorem space_ofBase (base : List α) : (ofBase base).space = base.length := rfl

@[simp] theorem contents_reset : b.reset.contents = [] := rfl

@[simp] theorem space_reset : b.reset.space = b.size := rfl

/-- **`copy` appends to the contents.** -/
theorem exists_copy (as : List α) (h : as.length ≤ b.space) :
    ∃ b', b.copy as = some b' ∧ b'.contents = b.contents ++ as ∧ b'.size = b.size ∧
      b'.rd = b.rd ∧ b'.space = b.space - as.length := by
  have hrd := b.rd_le
  have hwr := b.wr_le
  have htake : (b.base.take b.wr).length = b.wr := length_take_of_le hwr
  have hfit : b.wr + as.length ≤ b.base.length := by
    unfold space size at h
    omega
  have hsize : (b.base.take b.wr ++ (as ++ b.base.drop (b.wr + as.length))).length =
      b.base.length := by
    rw [length_append, length_append, htake, length_drop]
    omega
  refine ⟨_, dif_pos h, ?_, hsize, rfl, ?_⟩
  · unfold contents
    dsimp only
    rw [← append_assoc, take_left' (by rw [length_append, htake]),
      drop_append_of_le_length (by omega)]
  unfold space size
  dsimp only
  omega

/-- **`advance` drops from the contents.** -/
theorem exists_advance {n : ℕ} (h : n ≤ b.length) :
    ∃ b', b.advance n = some b' ∧ b'.contents = b.contents.drop n ∧ b'.size = b.size ∧
      b'.space = b.space := by
  refine ⟨_, dif_pos h, ?_, rfl, rfl⟩
  unfold contents
  rw [drop_drop]

/-- **`crunch` keeps the contents** and leaves the rest of the buffer free. -/
@[simp] theorem contents_crunch : b.crunch.contents = b.contents := by
  show ((b.contents ++ b.base.drop b.length).take b.length).drop 0 = b.contents
  rw [drop_zero, take_left' b.length_contents]

@[simp] theorem size_crunch : b.crunch.size = b.size := by
  have hwr := b.wr_le
  show (b.contents ++ b.base.drop b.length).length = b.base.length
  rw [length_append, length_contents, length_drop]
  unfold length
  omega

theorem contents_of_full (hrd : b.rd = 0) (hspace : b.space = 0) : b.contents = b.base := by
  have hfull : b.base.length ≤ b.wr := by
    unfold space size at hspace
    omega
  rw [contents, hrd, drop_zero, take_of_length_le hfull]

theorem length_of_rd (hrd : b.rd = 0) : b.length + b.space = b.size := by
  have h := b.length_add_space
  omega

end Block
end Lib
