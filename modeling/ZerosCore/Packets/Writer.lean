/-
# What the writes leave in a buffer

Every write puts bytes at the end, as long as the buffer has fewer than ten million of them;
the bits of a byte that is not full are pending.  A write of bytes flushes them first, so that
its bytes come after them (`write_fits`), except for the characters of a string and the bytes
of a packed guid, which `append` puts before them.
-/

import ZerosCore.Packets.Pieces

namespace ZerosCore.Packets

open ByteBuffer List Option ByteBuffer Write

variable {b b' r r' : ByteBuffer} {l l' : List Byte} {c : Byte}

/-! ### The writer -/

/-- What is written is put at the end, and the current byte has no bits below the cursor. -/
structure Writing (b : ByteBuffer) : Prop where
  wpos_eq : b.wpos = b.size
  pos : 0 < b.bitpos
  le : b.bitpos ≤ 8
  low : ∀ j, j < b.bitpos → b.curbitval.getLsbD j = false

theorem writing_empty : Writing .empty :=
  ⟨rfl, by decide, by decide, fun _ _ => BitVec.getLsbD_zero⟩

def put (b : ByteBuffer) (src : List Byte) : ByteBuffer :=
  { b with storage := b.storage ++ src, wpos := b.wpos + src.length }

theorem appendRaw_eq (hb : b.wpos = b.size) (src : List Byte) :
    b.appendRaw src = if src ≠ [] ∧ b.size < maxSize then some (put b src) else none := by
  rw [appendRaw]
  by_cases hsrc : src = []
  · rw [if_pos hsrc, if_neg fun h => h.1 hsrc]
  rw [if_neg hsrc]
  by_cases hsize : b.size < maxSize
  · rw [if_neg (Nat.not_le.mpr hsize), if_pos ⟨hsrc, hsize⟩, put, hb, size]
    simp
  · rw [if_pos (Nat.le_of_not_lt hsize), if_neg fun h => hsize h.2]

theorem put_put (b : ByteBuffer) (l l' : List Byte) : put (put b l) l' = put b (l ++ l') := by
  simp [put, Nat.add_assoc]

def pending (b : ByteBuffer) : List Byte := if b.bitpos = 8 then [] else [b.curbitval]

/-- A write that puts bytes into the buffer before the pending bits. -/
def Write.isRaw : Write → Bool
  | .string s => !s.chars.isEmpty
  | .packGuid _ => true
  | _ => false

/-- A write after which no bits are pending, if it puts none of its own before them. -/
def Write.flushes : Write → Bool
  | .byteSeq byte => byte != 0
  | .bit _ => false
  | .bits _ _ => false
  | _ => true

theorem Writing.clear (hb : b.wpos = b.size) (src : List Byte) :
    Writing (clearBits (put b src)) := by
  refine ⟨?_, Nat.succ_pos 7, Nat.le_refl 8, fun _ _ => BitVec.getLsbD_zero⟩
  simp [clearBits, put, size, hb]

theorem Writing.clear_self (hb : Writing b) (hpos : b.bitpos = 8) : clearBits b = b := by
  have hcur : b.curbitval = 0 := BitVec.eq_of_getLsbD_eq fun j hj => by
    rw [hb.low j (by omega)]
    simp
  obtain ⟨rpos, wpos, bitpos, curbitval, storage⟩ := b
  subst hpos hcur
  rfl

theorem put_nil (b : ByteBuffer) : put b [] = b := by
  simp [put]

theorem flushBits_eq (hb : Writing b) : b.flushBits =
    if b.bitpos = 8 ∨ b.size < maxSize then some (clearBits (put b (pending b))) else none := by
  rw [flushBits, pending]
  by_cases hpos : b.bitpos = 8
  · rw [if_pos hpos, if_pos hpos, if_pos (.inl hpos), put_nil, hb.clear_self hpos]
  rw [if_neg hpos, if_neg hpos, appendRaw_eq hb.wpos_eq]
  by_cases hsize : b.size < maxSize
  · rw [if_pos ⟨by simp, hsize⟩, if_pos (.inr hsize)]
    rfl
  rw [if_neg fun h => hsize h.2, if_neg fun h => h.elim hpos hsize]
  rfl

/-- Every `append` finds less in the buffer than it may hold; `n` bytes are there, and the
appends are of these sizes. -/
def Fits : ℕ → List ℕ → Prop
  | _, [] => True
  | n, size :: sizes => n < maxSize ∧ Fits (n + size) sizes

instance decidableFits : (n : ℕ) → (sizes : List ℕ) → Decidable (Fits n sizes)
  | _, [] => inferInstanceAs (Decidable True)
  | n, size :: sizes =>
    have := decidableFits (n + size) sizes
    inferInstanceAs (Decidable (_ ∧ _))

theorem fits_append (n : ℕ) (sizes sizes' : List ℕ) :
    Fits n (sizes ++ sizes') ↔ Fits n sizes ∧ Fits (n + sizes.sum) sizes' := by
  induction sizes generalizing n with
  | nil => simp [Fits]
  | cons size sizes ih =>
    simp only [cons_append, Fits, ih, sum_cons, and_assoc, Nat.add_assoc]

/-- The append of the pending bits, of which there are `k`. -/
def gap (k : ℕ) : List ℕ := if k = 0 then [] else [1]

def Write.appends (k : ℕ) : Write → List ℕ
  | .bit _ => []
  | .bits _ _ => []
  | .int type _ => gap k ++ [type.size]
  | .byteSeq byte => if byte ≠ 0 then gap k ++ [1] else []
  | .string s => (if s.chars ≠ [] then [s.chars.length] else []) ++ gap k ++ [1]
  | .packGuid guid => [(packLoop 8 0 guid).2.length + 1]
  | .flush => gap k

section

variable (hb : Writing b)

include hb

theorem gap_eq : gap (8 - b.bitpos) = (pending b).map fun _ => 1 := by
  have hle := hb.le
  rw [gap, pending]
  by_cases hpos : b.bitpos = 8
  · rw [if_pos (by omega), if_pos hpos]
    rfl
  rw [if_neg (by omega), if_neg hpos]
  rfl

theorem clear_put (hpos : b.bitpos = 8) (src : List Byte) : clearBits (put b src) = put b src := by
  have hself := hb.clear_self hpos
  change put (clearBits b) src = put b src
  rw [hself]

theorem flush_fits : b.flushBits =
    if Fits b.size (gap (8 - b.bitpos)) then some (clearBits (put b (pending b))) else none := by
  have hle := hb.le
  rw [flushBits_eq hb, gap]
  by_cases hpos : b.bitpos = 8
  · rw [if_pos (.inl hpos), if_pos (c := 8 - b.bitpos = 0) (by omega)]
    exact (if_pos trivial).symm
  rw [if_neg (c := 8 - b.bitpos = 0) (by omega)]
  simp only [Fits, hpos, false_or, and_true]

theorem append_fits {src : List Byte} (hsrc : src ≠ []) : b.append src =
    if Fits b.size (gap (8 - b.bitpos) ++ [src.length]) then
      some (clearBits (put b (pending b ++ src))) else none := by
  have hclear : Writing (clearBits (put b (pending b))) := .clear hb.wpos_eq _
  have hsize : (clearBits (put b (pending b))).size = b.size + (gap (8 - b.bitpos)).sum := by
    rw [gap_eq hb]
    simp [size, clearBits, put]
  rw [append, flush_fits hb]
  by_cases hgap : Fits b.size (gap (8 - b.bitpos))
  · rw [if_pos hgap, bind_some, appendRaw_eq hclear.wpos_eq, hsize]
    simp only [fits_append, hgap, Fits, and_true, true_and, ne_eq, hsrc, not_false_eq_true]
    refine if_congr Iff.rfl ?_ rfl
    rw [← put_put]
    rfl
  rw [if_neg hgap, if_neg fun h => hgap ((fits_append _ _ _).mp h).1]
  rfl

/-- **A write of bytes** puts its bytes after the pending bits, unless it puts some before
them. -/
theorem write_fits {w : Write} (hw : w.isBits = false)
    (hraw : w.isRaw = true → b.bitpos = 8) : b.write w =
      if Fits b.size (w.appends (8 - b.bitpos)) then
        some (if w.flushes then clearBits (put b (pending b ++ w.bytes)) else b) else none := by
  cases w with
  | bit | bits => cases hw
  | int type v =>
    have hpos : toBytes type.size v ≠ [] := by
      rw [← length_pos_iff, length_toBytes]
      exact size_pos type
    have happend := append_fits hb hpos
    rw [length_toBytes] at happend
    exact happend
  | byteSeq byte =>
    simp only [write, writeByteSeq, appends, flushes, bytes]
    by_cases hzero : byte = 0
    · simp [hzero, Fits]
    · simp [show byte ≠ 0#8 from hzero, append_fits hb]
  | string s =>
    simp only [write, writeString, appends, flushes, bytes]
    by_cases hempty : s.chars = []
    · simp [hempty, append_fits hb]
    have hpos : b.bitpos = 8 := hraw (by simp [isRaw, hempty])
    have hput : Writing (put b s.chars) := by
      have hclear := Writing.clear hb.wpos_eq s.chars
      rwa [clear_put hb hpos] at hclear
    have hsize : (put b s.chars).size = b.size + s.chars.length := by
      simp [size, put]
    have hpending : pending b = [] ∧ pending (put b s.chars) = [] := ⟨if_pos hpos, if_pos hpos⟩
    rw [if_pos hempty, appendRaw_eq hb.wpos_eq, if_pos hempty]
    by_cases hfits : b.size < maxSize
    · rw [if_pos ⟨hempty, hfits⟩, bind_some, append_fits hput (by simp), hsize,
        hpending.1, hpending.2, nil_append, nil_append, put_put]
      simp only [cons_append, nil_append, Fits, hfits, true_and, if_true]
      rfl
    rw [if_neg fun h => hfits h.2]
    simp [Fits, hfits]
  | packGuid guid =>
    have hpos : b.bitpos = 8 := hraw rfl
    simp only [write, appendPackGUID, appends, flushes, bytes]
    rw [appendRaw_eq hb.wpos_eq, pending, if_pos hpos, nil_append, clear_put hb hpos]
    simp [Fits]
  | flush =>
    rw [write, flush_fits hb]
    simp [appends, flushes, bytes]

theorem getLsbD_putBit (bit : Bool) (j : ℕ) (hj : j < 8) : (b.putBit bit).curbitval.getLsbD j =
      if j = b.bitpos - 1 then bit else b.curbitval.getLsbD j := by
  have hpos := hb.pos
  have hle := hb.le
  simp only [putBit]
  cases bit with
  | false =>
    rw [if_neg Bool.false_ne_true]
    split
    · exact hb.low j (by omega)
    · rfl
  | true =>
    rw [if_pos rfl, BitVec.getLsbD_or, BitVec.getLsbD_shiftLeft, BitVec.getLsbD_one]
    by_cases heq : j = b.bitpos - 1
    · simp [heq, show b.bitpos - 1 < 8 by omega]
    by_cases hlt : j < b.bitpos - 1
    · simp [heq, hlt]
    · simp [heq, show j - (b.bitpos - 1) ≠ 0 by omega]

theorem Writing.putBit (hne : b.bitpos ≠ 1) (bit : Bool) : Writing (b.putBit bit) := by
  have hpos := hb.pos
  have hle := hb.le
  refine ⟨hb.wpos_eq, Nat.sub_pos_of_lt (by omega), Nat.le_trans (Nat.sub_le _ _) hle,
    fun j hj => ?_⟩
  change j < b.bitpos - 1 at hj
  rw [getLsbD_putBit hb bit j (by omega), if_neg (by omega)]
  exact hb.low j (by omega)

theorem writeBit_fits (bit : Bool) : b.writeBit bit = if b.bitpos = 1 then
      if b.size < maxSize then some (clearBits (put b [(b.putBit bit).curbitval])) else none
    else some (b.putBit bit) := by
  have hpos := hb.pos
  have hput : (b.putBit bit).wpos = (b.putBit bit).size := hb.wpos_eq
  rw [writeBit]
  by_cases hone : b.bitpos = 1
  · have hzero : (b.putBit bit).bitpos = 0 := by
      simp [putBit, hone]
    rw [if_pos hzero, if_pos hone, appendRaw_eq hput]
    by_cases hsize : b.size < maxSize
    · rw [if_pos hsize, if_pos ⟨by simp, hsize⟩]
      rfl
    rw [if_neg hsize, if_neg fun h => hsize h.2]
    rfl
  have hzero : (b.putBit bit).bitpos ≠ 0 := by
    simp only [putBit]
    omega
  rw [if_neg hzero, if_neg hone]

end

end ZerosCore.Packets
