/-
# Writes in pieces

`WriteBits` and `ReadBits` are loops over single bits.  A sequence of typed writes is a
sequence of pieces, each a single bit or a write of whole bytes, and it is read back exactly
if the pieces are (`readAll_iff`).
-/

import ZerosCore.Packets.ReadBytes

namespace ZerosCore.Packets

open ByteBuffer List Option

variable {b b' r r' : ByteBuffer} {l l' : List Byte} {c : Byte}

/-! ### Pieces -/

/-- A single bit, or a write of bytes. -/
inductive Piece where
  | bit (bit : Bool)
  | bytes (w : Write)

/-- The lowest bits of a value, the highest of them first. -/
def bitsOf (value : ℕ) : ℕ → List Bool
  | 0 => []
  | i + 1 => value.testBit i :: bitsOf value i

def Write.pieces : Write → List Piece
  | .bit b => [.bit b]
  | .bits value n => (bitsOf value n).map .bit
  | w => [.bytes w]

def writePiece (b : ByteBuffer) : Piece → Option ByteBuffer
  | .bit bit => b.writeBit bit
  | .bytes w => b.write w

def writePieces : List Piece → ByteBuffer → Option ByteBuffer
  | [], b => some b
  | p :: ps, b => (writePiece b p).bind (writePieces ps)

def ReadsBack : List Piece → ByteBuffer → ByteBuffer → Prop
  | [], b, r => b = r
  | .bit bit :: ps, b, r => ∃ b', b.readBit = some (bit, b') ∧ ReadsBack ps b' r
  | .bytes w :: ps, b, r => ∃ b', b.read w.read = some (w.value, b') ∧ ReadsBack ps b' r

theorem writePieces_append (ps qs : List Piece) (b : ByteBuffer) :
    writePieces (ps ++ qs) b = (writePieces ps b).bind (writePieces qs) := by
  induction ps generalizing b with
  | nil => rfl
  | cons p ps ih =>
    simp only [cons_append, writePieces]
    cases writePiece b p with
    | none => rfl
    | some b' => exact ih b'

theorem readsBack_append (ps qs : List Piece) (b r : ByteBuffer) :
    ReadsBack (ps ++ qs) b r ↔ ∃ b', ReadsBack ps b b' ∧ ReadsBack qs b' r := by
  induction ps generalizing b with
  | nil => simp [ReadsBack]
  | cons p ps ih =>
    cases p with
    | bit bit | bytes w =>
      simp only [cons_append, ReadsBack, ih]
      constructor
      · rintro ⟨b1, hread, b2, hps, hqs⟩
        exact ⟨b2, ⟨b1, hread, hps⟩, hqs⟩
      rintro ⟨b2, ⟨b1, hread, hps⟩, hqs⟩
      exact ⟨b1, hread, b2, hps, hqs⟩

theorem writeBits_pieces (value n : ℕ) (b : ByteBuffer) :
    writeBits value n b = writePieces ((bitsOf value n).map .bit) b := by
  induction n generalizing b with
  | zero => rfl
  | succ n ih =>
    simp only [writeBits, bitsOf, map_cons, writePieces, writePiece]
    congr 1
    funext b'
    exact ih b'

theorem write_pieces (w : Write) (b : ByteBuffer) : b.write w = writePieces w.pieces b := by
  cases w with
  | bits value n => exact writeBits_pieces value n b
  | _ => simp [Write.pieces, writePieces, writePiece, ByteBuffer.write]

theorem writeAll_pieces (ws : List Write) (b : ByteBuffer) :
    writeAll ws b = writePieces (ws.flatMap Write.pieces) b := by
  induction ws generalizing b with
  | nil => rfl
  | cons w ws ih =>
    rw [flatMap_cons, writePieces_append, writeAll, write_pieces]
    congr 1
    funext b'
    exact ih b'

/-- The bit `i` of a value of 32 bits. -/
theorem shift_eq {i : ℕ} (h : i < 32) : (1 <<< i) % 2 ^ 32 = 2 ^ i := by
  rw [Nat.one_shiftLeft, Nat.mod_eq_of_lt (Nat.pow_lt_pow_right (by decide) h)]

theorem readBits_high {i value v : ℕ} (hi : i ≤ 32) (h : readBits i value b = some (v, r)) {j : ℕ}
    (hj : i ≤ j) : v.testBit j = value.testBit j := by
  induction i generalizing value b with
  | zero =>
    cases h
    rfl
  | succ i ih =>
    rw [readBits] at h
    split at h
    · cases h
    rename_i bit b' hread
    rw [ih (by omega) h (by omega)]
    split
    · rw [Nat.testBit_or, shift_eq hi, Nat.testBit_two_pow_of_ne (by omega), Bool.or_false]
    · rfl

/-- **Bits are read back** exactly if each of them is. -/
theorem readBits_iff (value i acc : ℕ) (hi : i ≤ 32)
    (hacc : ∀ j, j < i → acc.testBit j = false) (b r : ByteBuffer) :
    readBits i acc b = some (acc ||| value % 2 ^ i, r) ↔ ReadsBack ((bitsOf value i).map .bit) b r := by
  induction i generalizing acc b with
  | zero => simp [readBits, bitsOf, ReadsBack, Nat.mod_one]
  | succ i ih =>
    simp only [readBits, bitsOf, map_cons, ReadsBack, shift_eq hi]
    cases hread : b.readBit with
    | none => simp
    | some p =>
      obtain ⟨bit, b'⟩ := p
      dsimp only
      have hnext (j : ℕ) (hj : j < i) :
          (if bit then acc ||| 2 ^ i else acc).testBit j = false := by
        split
        · rw [Nat.testBit_or, Nat.testBit_two_pow_of_ne (by omega),
            hacc j (by omega)]
          rfl
        · exact hacc j (by omega)
      have hself : (if bit then acc ||| 2 ^ i else acc).testBit i = bit := by
        cases bit with
        | true => simp [Nat.testBit_or, Nat.testBit_two_pow_self]
        | false => simp [hacc i (Nat.lt_succ_self i)]
      by_cases hbit : bit = value.testBit i
      · have hsum : acc ||| value % 2 ^ (i + 1) =
            (if bit then acc ||| 2 ^ i else acc) ||| value % 2 ^ i := by
          refine Nat.eq_of_testBit_eq fun j => ?_
          rw [Nat.testBit_or, Nat.testBit_or, Nat.testBit_mod_two_pow, Nat.testBit_mod_two_pow]
          rcases Nat.lt_trichotomy j i with hlt | heq | hgt
          · rw [hnext j hlt, hacc j (by omega)]
            simp [hlt, show j < i + 1 by omega]
          · rw [heq, hself, hacc i (Nat.lt_succ_self i), hbit]
            simp
          have hkeep : (if bit then acc ||| 2 ^ i else acc).testBit j = acc.testBit j := by
            split
            · rw [Nat.testBit_or, Nat.testBit_two_pow_of_ne (by omega),
                Bool.or_false]
            · rfl
          rw [hkeep]
          simp [show ¬ j < i by omega, show ¬ j < i + 1 by omega]
        rw [hsum, ih _ (by omega) hnext b']
        constructor
        · exact fun h => ⟨b', by rw [hbit], h⟩
        rintro ⟨b'', heq, h⟩
        cases heq
        exact h
      constructor
      · intro h
        have hhigh := readBits_high (by omega) h (Nat.le_refl i)
        rw [hself, Nat.testBit_or, hacc i (Nat.lt_succ_self i), Bool.false_or,
          Nat.testBit_mod_two_pow] at hhigh
        simp at hhigh
        exact absurd hhigh.symm hbit
      rintro ⟨b'', heq, h⟩
      cases heq
      exact absurd rfl hbit

theorem read_iff (w : Write) (b r : ByteBuffer) :
    b.read w.read = some (w.value, r) ↔ ReadsBack w.pieces b r := by
  cases w with
  | bit bit =>
    simp only [Write.read, ByteBuffer.read, Write.value, Write.pieces, ReadsBack]
    cases b.readBit with
    | none => simp
    | some p => simp [Prod.ext_iff]
  | bits value n =>
    have hbits := readBits_iff value n 0 (by omega) (fun j _ => Nat.zero_testBit j) b r
    rw [Nat.zero_or] at hbits
    change _ ↔ ReadsBack ((bitsOf value n).map .bit) b r
    rw [← hbits]
    simp only [Write.read, ByteBuffer.read, Write.value]
    cases readBits n 0 b with
    | none => simp
    | some p => simp [Prod.ext_iff]
  | _ => simp [Write.pieces, ReadsBack]

theorem readAll_iff (ws : List Write) (b r : ByteBuffer) :
    readAll (ws.map Write.read) b = some (ws.map Write.value, r) ↔
      ReadsBack (ws.flatMap Write.pieces) b r := by
  induction ws generalizing b with
  | nil => simp [readAll, ReadsBack]
  | cons w ws ih =>
    simp only [map_cons, flatMap_cons, readsBack_append, ← read_iff, ← ih, readAll]
    cases b.read w.read with
    | none => simp
    | some p =>
      obtain ⟨v, b'⟩ := p
      simp only [map_eq_some_iff, Prod.mk.injEq, cons.injEq, some.injEq]
      constructor
      · rintro ⟨⟨vs, r'⟩, hread, ⟨hv, hvs⟩, hr⟩
        subst hv hvs hr
        exact ⟨b', ⟨rfl, rfl⟩, hread⟩
      rintro ⟨b'', ⟨hv, hb⟩, hread⟩
      subst hv hb
      exact ⟨(ws.map Write.value, r), hread, ⟨rfl, rfl⟩, rfl⟩

end ZerosCore.Packets
