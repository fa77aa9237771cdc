/-
# Bits put into a packet

`ByteBuffer::PutBits` of `src/server/shared/Packets/ByteBuffer.h` writes over bits of the bytes a
packet has already.  It changes no other bit, and its value is read back, its bits being in the
order of `WriteBits`, if there are no more bits than the 32 that `ReadBits` returns (`putBits_spec`).
`PutBits` of a 64-bit value may be given more (`putBits_wide`).
-/

import ZerosCore.Packets.BitAlignment

namespace ZerosCore.Packets.ByteBuffer

open List Option

/-- A turn of the loop of `PutBits`. -/
def setBit (b : ByteBuffer) (pos : ℕ) (bit : Bool) : ByteBuffer :=
  { b with
    storage := b.storage.modify (pos / 8) fun c =>
      if bit then c ||| 1#8 <<< (7 - pos % 8) else c &&& ~~~(1#8 <<< (7 - pos % 8)) }

/-- `PutBits`: no bits, and bits past the end, are refused. -/
def putBits (b : ByteBuffer) (pos value bitCount : ℕ) : Option ByteBuffer :=
  if bitCount = 0 then none
  else if b.size * 8 < pos + bitCount then none
  else some ((List.range bitCount).foldl (fun b i =>
    b.setBit (pos + i) (value.testBit (bitCount - i - 1))) b)

/-- The bit at a position of what is written. -/
def bitAt (b : ByteBuffer) (pos : ℕ) : Bool := (b.storage.getD (pos / 8) 0).getLsbD (7 - pos % 8)

/-- The next bit to be read is the one at the position: the first of a byte, or one of the byte
that is read. -/
def ReadsFrom (r : ByteBuffer) (pos : ℕ) : Prop :=
  pos % 8 = 0 ∧ 7 ≤ r.bitpos ∧ r.rpos = pos / 8 ∨
    pos % 8 = r.bitpos + 1 ∧ r.rpos = pos / 8 + 1 ∧ r.storage[pos / 8]? = some r.curbitval

variable {b r : ByteBuffer} {pos : ℕ}

/-! ### What is put -/

theorem getLsbD_set (c : Byte) (bit : Bool) {i j : ℕ} (hj : j < 8) :
    (if bit then c ||| 1#8 <<< i else c &&& ~~~(1#8 <<< i)).getLsbD j =
      if j = i then bit else c.getLsbD j := by
  have hone : (1#8 <<< i).getLsbD j = decide (j = i) := by
    by_cases hji : j < i <;> simp [hji, hj] <;> omega
  cases bit with
  | true =>
    rw [if_pos rfl, BitVec.getLsbD_or, hone]
    by_cases heq : j = i <;> simp [heq]
  | false =>
    rw [if_neg Bool.false_ne_true, BitVec.getLsbD_and, BitVec.getLsbD_not, hone]
    by_cases heq : j = i <;> simp [heq, hj]

theorem bitAt_setBit (h : pos < b.size * 8) (bit : Bool) (p : ℕ) :
    (b.setBit pos bit).bitAt p = if p = pos then bit else b.bitAt p := by
  have hbyte : pos / 8 < b.storage.length := Nat.div_lt_of_lt_mul (Nat.mul_comm .. ▸ h)
  unfold bitAt setBit
  simp only [getD_eq_getElem?_getD, getElem?_modify]
  by_cases hp : pos / 8 = p / 8
  · have hbit : 7 - p % 8 = 7 - pos % 8 ↔ p = pos := by omega
    simp only [← hp, if_true, getElem?_eq_getElem hbyte, Option.map_eq_map, Option.map_some,
      Option.getD_some, ← hbit]
    exact getLsbD_set _ bit (by omega)
  rw [if_neg (show p ≠ pos by rintro rfl; exact hp rfl)]
  simp [hp]

/-- The bits from a position on are of a value, and the others are as they were. -/
structure Put (b : ByteBuffer) (pos value bitCount k : ℕ) (b' : ByteBuffer) : Prop where
  frame : b' = { b with storage := b'.storage }
  size : b'.size = b.size
  bits : ∀ p, b'.bitAt p =
    if pos ≤ p ∧ p < pos + k then value.testBit (bitCount - (p - pos) - 1) else b.bitAt p

theorem put_turns (b : ByteBuffer) (value : ℕ) {bitCount k : ℕ} (h : pos + k ≤ b.size * 8) :
    Put b pos value bitCount k ((List.range k).foldl (fun b i =>
      b.setBit (pos + i) (value.testBit (bitCount - i - 1))) b) := by
  induction k with
  | zero => exact ⟨rfl, rfl, fun p => (if_neg (by omega)).symm⟩
  | succ k ih =>
    have hput := ih (by omega)
    rw [range_succ, foldl_append, foldl_cons, foldl_nil]
    generalize (List.range k).foldl _ b = b' at hput
    refine ⟨?_, ?_, fun p => ?_⟩
    · rw [hput.frame]
      rfl
    · rw [← hput.size]
      exact length_modify ..
    rw [bitAt_setBit (by rw [hput.size]; omega), hput.bits]
    by_cases heq : p = pos + k
    · rw [if_pos heq, if_pos (by omega), heq, Nat.add_sub_cancel_left]
    rw [if_neg heq]
    have hsame : pos ≤ p ∧ p < pos + (k + 1) ↔ pos ≤ p ∧ p < pos + k := by omega
    simp only [hsame]

/-! ### What is read -/

theorem readBit_readsFrom (h : r.ReadsFrom pos) (hpos : pos < r.size * 8) :
    ∃ r', r.readBit = some (r.bitAt pos, r') ∧ r'.storage = r.storage ∧
      r'.ReadsFrom (pos + 1) := by
  have hbyte : pos / 8 < r.storage.length := Nat.div_lt_of_lt_mul (Nat.mul_comm .. ▸ hpos)
  have hget := getElem?_eq_getElem hbyte
  unfold bitAt
  rw [getD_eq_getElem?_getD, hget, Option.getD_some]
  rcases h with ⟨hfirst, hlast, hrpos⟩ | ⟨hin, hrpos, hcur⟩
  · rw [readBit_next hlast (by rw [hrpos]; exact hget), hfirst]
    refine ⟨_, rfl, rfl, .inr ⟨?_, ?_, ?_⟩⟩
    · dsimp only
      omega
    · dsimp only
      omega
    rw [← hget]
    congr 1
    omega
  have hbyte := some.inj (hget.symm.trans hcur)
  rw [hbyte, hin, readBit_same (by omega), show 7 - (r.bitpos + 1) = 6 - r.bitpos by omega]
  refine ⟨_, rfl, rfl, ?_⟩
  by_cases hlast : r.bitpos = 6
  · exact .inl ⟨by omega, by dsimp only; omega, by dsimp only; omega⟩
  refine .inr ⟨by dsimp only; omega, by dsimp only; omega, ?_⟩
  rw [show (pos + 1) / 8 = pos / 8 by omega]
  exact hcur

/-- **Bits are read back** where they are. -/
theorem readsBack_bits (value : ℕ) {n : ℕ} (h : r.ReadsFrom pos) (hpos : pos + n ≤ r.size * 8)
    (hbits : ∀ i < n, r.bitAt (pos + i) = value.testBit (n - i - 1)) :
    ∃ r', ReadsBack ((bitsOf value n).map .bit) r r' ∧ r'.ReadsFrom (pos + n) := by
  induction n generalizing r pos with
  | zero => exact ⟨r, rfl, h⟩
  | succ n ih =>
    obtain ⟨r', hread, hstorage, hnext⟩ := readBit_readsFrom h (by omega)
    have hfirst := hbits 0 n.succ_pos
    rw [Nat.add_zero] at hfirst
    rw [hfirst] at hread
    obtain ⟨r'', hback, hend⟩ := ih hnext (by unfold size at hpos ⊢; rw [hstorage]; omega)
      fun i hi => by
        have hbit := hbits (i + 1) (by omega)
        unfold bitAt at hbit ⊢
        rw [hstorage, Nat.add_right_comm, Nat.add_assoc, hbit]
        congr 1
        omega
    exact ⟨r'', ⟨r', hread, hback⟩, by rwa [Nat.add_right_comm] at hend⟩

/-- **`PutBits` is a local change of bits.**  Within what is written it changes no bits but those
it is asked to, and from there they are read back as `WriteBits` would have written them, and as
the value.  Where there is nothing to be written it throws. -/
theorem putBits_spec {n : ℕ} (value : ℕ) (hwidth : n ≤ 32) (h : pos + n ≤ b.size * 8) :
    (n = 0 → b.putBits pos value n = none) ∧
      (n ≠ 0 → ∃ b', b.putBits pos value n = some b' ∧ b' = { b with storage := b'.storage } ∧
        b'.size = b.size ∧ (∀ p, ¬(pos ≤ p ∧ p < pos + n) → b'.bitAt p = b.bitAt p) ∧
        (∀ c, writeBits value n c = writePieces ((bitsOf value n).map .bit) c) ∧
        ∀ r : ByteBuffer, r.storage = b'.storage → r.ReadsFrom pos →
          ∃ r', ReadsBack ((bitsOf value n).map .bit) r r' ∧
            readBits n 0 r = some (value % 2 ^ n, r') ∧ r'.ReadsFrom (pos + n)) := by
  refine ⟨fun hzero => if_pos hzero, fun hn => ?_⟩
  have hput : Put b pos value n n _ := put_turns b value h
  refine ⟨_, by rw [putBits, if_neg hn, if_neg (by omega)], hput.frame, hput.size,
    fun p hp => by rw [hput.bits, if_neg hp], writeBits_pieces value n, fun r hstorage hr => ?_⟩
  have hsize : r.size = b.size := by rw [← hput.size, size, hstorage, size]
  have hfits : pos + n ≤ r.size * 8 := hsize.symm ▸ h
  obtain ⟨r', hback, hend⟩ := readsBack_bits value hr hfits fun i hi => by
    have hbit := hput.bits (pos + i)
    rw [if_pos (by omega), Nat.add_sub_cancel_left] at hbit
    rw [bitAt, hstorage]
    exact hbit
  have hread := (readBits_iff value n 0 hwidth (fun j _ => Nat.zero_testBit j) r r').mpr hback
  rw [Nat.zero_or] at hread
  exact ⟨r', hback, hread, hend⟩

/-- Six bits over the end of a byte. -/
theorem putBits_over_end : ∃ b', (⟨0, 2, 8, 0, [0, 0]⟩ : ByteBuffer).putBits 5 45 6 = some b' ∧
    b'.size = 2 := by
  obtain ⟨b', hput, -, hsize, -⟩ :=
    (@putBits_spec ⟨0, 2, 8, 0, [0, 0]⟩ 5 6 45 (by decide) (by decide)).2 (by decide)
  exact ⟨b', hput, hsize⟩

/-- The highest of 33 bits is put, and does not come back. -/
theorem putBits_wide : ∃ b', (⟨0, 5, 8, 0, [0, 0, 0, 0, 0]⟩ : ByteBuffer).putBits 0 (2 ^ 32) 33 =
    some b' ∧ b'.ReadsFrom 0 ∧ ∀ v r', readBits 33 0 b' = some (v, r') → v ≠ 2 ^ 32 % 2 ^ 33 := by
  refine ⟨_, rfl, .inl ⟨rfl, by decide, rfl⟩, ?_⟩
  rintro v r' ⟨⟩
  decide

end ZerosCore.Packets.ByteBuffer
