/-
# Bytes that are read back

What the typed writes of whole bytes put into a buffer (numbers, byte sequences, strings
without a NUL and packed guids) is read back by the matching reads from wherever it is
(`read_bytes`): the reader needs no more than that these bytes come next.
-/

import ZerosCore.Packets.ByteBuffer
import Mathlib.Data.Fintype.Basic

namespace ZerosCore.Packets

open ByteBuffer List Option

variable {b b' r r' : ByteBuffer} {l l' : List Byte} {c : Byte}

/-! ### What is left to be read -/

/-- What is left to be read. -/
def rest (b : ByteBuffer) : List Byte := b.storage.drop b.rpos

/-- So many bytes were read. -/
def skip (b : ByteBuffer) (n : ℕ) : ByteBuffer := { b with rpos := b.rpos + n }

theorem rest_skip (h : rest b = l ++ l') : rest (skip b l.length) = l' := by
  rw [rest, skip, ← drop_drop]
  change (rest b).drop l.length = l'
  rw [h, drop_left]

theorem skip_skip (b : ByteBuffer) (m n : ℕ) : skip (skip b m) n = skip b (m + n) := by
  simp [skip, Nat.add_assoc]

theorem readByte_of_rest (h : rest b = c :: l) : b.readByte = some (c, skip b 1) := by
  have hget : b.storage[b.rpos]? = some c := by
    have hhead := congrArg (·[0]?) h
    simpa [rest] using hhead
  rw [readByte, hget, skip]

theorem rest_skip_one (h : rest b = c :: l) : rest (skip b 1) = l :=
  rest_skip (l := [c]) h

/-! ### Numbers -/

theorem getLsbD_ofBytes (n w : ℕ) (v : BitVec w) (k i : ℕ) (hi : i < w) :
    (ofBytes w ((List.range n).map fun j => v.extractLsb' (8 * (k + j)) 8)).getLsbD i =
      (decide (i < 8 * n) && v.getLsbD (8 * k + i)) := by
  induction n generalizing k i with
  | zero => simp [ofBytes]
  | succ n ih =>
    rw [List.range_succ_eq_map, List.map_cons, List.map_map, ofBytes, List.foldr_cons]
    change ((ofBytes w _) <<< 8 ||| _).getLsbD i = _
    have htail : ((fun j => v.extractLsb' (8 * (k + j)) 8) ∘ Nat.succ) =
        fun j => v.extractLsb' (8 * ((k + 1) + j)) 8 := by
      funext j
      simp only [Function.comp_apply]
      congr 1
      omega
    rw [htail, BitVec.getLsbD_or, BitVec.getLsbD_shiftLeft, BitVec.getLsbD_setWidth,
      BitVec.getLsbD_extractLsb']
    by_cases hlow : i < 8
    · simp [hlow, hi, show i < 8 * (n + 1) by omega]
    have hih := ih (k + 1) (i - 8) (by omega)
    rw [hih]
    have hidx : 8 * (k + 1) + (i - 8) = 8 * k + i := by omega
    rw [hidx]
    have hlt : (i - 8 < 8 * n) = (i < 8 * (n + 1)) := by
      apply propext
      omega
    simp [hlow, hi, hlt]

theorem ofBytes_toBytes (n : ℕ) (v : BitVec (8 * n)) : ofBytes (8 * n) (toBytes n v) = v := by
  refine BitVec.eq_of_getLsbD_eq fun i hi => ?_
  have h := getLsbD_ofBytes n (8 * n) v 0 i hi
  simp only [Nat.zero_add, Nat.mul_zero, hi, decide_true, Bool.true_and] at h
  exact h

theorem length_toBytes {w : ℕ} (n : ℕ) (v : BitVec w) : (toBytes n v).length = n := by
  rw [toBytes, length_map, length_range]

theorem size_pos (type : IntType) : 0 < type.size := by
  cases type <;> decide

theorem readRaw_of_rest (hl : 0 < l.length) (h : rest b = l ++ l') :
    b.readRaw l.length = some (l, skip b l.length) := by
  have hlength := congrArg List.length h
  rw [rest, length_drop, length_append] at hlength
  rw [readRaw, size]
  split
  · omega
  change some (List.take l.length (rest b), _) = _
  rw [h, take_left, skip]

/-! ### Strings -/

theorem readChars_of_rest (s : List Byte) (hs : 0#8 ∉ s) (n : ℕ) (hn : s.length < n)
    (h : rest b = s ++ 0 :: l) : readChars n b = (s, skip b (s.length + 1)) := by
  induction s generalizing b n with
  | nil =>
    obtain ⟨n, rfl⟩ : ∃ m, n = m + 1 := ⟨n - 1, by simp at hn; omega⟩
    rw [readChars, readByte_of_rest (c := 0) (l := l) h]
    simp
  | cons c s ih =>
    obtain ⟨n, rfl⟩ : ∃ m, n = m + 1 := ⟨n - 1, by simp at hn; omega⟩
    rw [mem_cons, not_or] at hs
    rw [readChars, readByte_of_rest (c := c) (l := s ++ 0 :: l) h]
    have hc : c ≠ 0 := Ne.symm hs.1
    dsimp only
    rw [if_neg hc, ih hs.2 n (by simp at hn; omega) (rest_skip_one h), skip_skip]
    simp only [length_cons, Prod.mk.injEq, true_and]
    congr 1
    omega

/-! ### Packed guids -/

theorem packLoop_zero (n i : ℕ) : packLoop n i 0#64 = (0#8, []) := by
  cases n with
  | zero => rfl
  | succ n =>
    rw [packLoop]
    exact if_pos rfl

theorem packLoop_succ (n i : ℕ) (guid : BitVec 64) : packLoop (n + 1) i guid =
      if guid.setWidth 8 ≠ 0 then ((packLoop n (i + 1) (guid >>> 8)).1 ||| 1#8 <<< i,
          guid.setWidth 8 :: (packLoop n (i + 1) (guid >>> 8)).2)
      else packLoop n (i + 1) (guid >>> 8) := by
  rw [packLoop]
  by_cases hzero : guid = 0
  · rw [if_pos hzero, hzero]
    simp [packLoop_zero]
  · rw [if_neg hzero]

theorem packLoop_mask_low (n i : ℕ) (guid : BitVec 64) {j : ℕ} (hj : j < i) :
    (packLoop n i guid).1.getLsbD j = false := by
  induction n generalizing i guid with
  | zero => exact BitVec.getLsbD_zero
  | succ n ih =>
    rw [packLoop_succ]
    split
    · have hother : (1#8 <<< i).getLsbD j = false := by
        rw [BitVec.getLsbD_shiftLeft]
        simp [hj]
      rw [BitVec.getLsbD_or, ih (i + 1) _ (Nat.lt_succ_of_lt hj), hother]
      rfl
    · exact ih (i + 1) _ (Nat.lt_succ_of_lt hj)

theorem and_bit_ne_zero (mask : Byte) {i : ℕ} (hi : i < 8) :
    mask &&& 1#8 <<< i ≠ 0 ↔ mask.getLsbD i = true := by
  have hbit (j : ℕ) : (mask &&& 1#8 <<< i).getLsbD j = (decide (j = i) && mask.getLsbD i) := by
    rw [BitVec.getLsbD_and, BitVec.getLsbD_shiftLeft, BitVec.getLsbD_one]
    by_cases hj : j = i
    · simp [hj, hi]
    by_cases hlt : j < i
    · simp [hj, hlt]
    · simp [hj, show j - i ≠ 0 by omega]
  constructor
  · intro hne
    cases hfalse : mask.getLsbD i with
    | true => rfl
    | false =>
      refine absurd (BitVec.eq_of_getLsbD_eq fun j _ => ?_) hne
      rw [hbit, hfalse]
      simp
  intro htrue hzero
  have hself := hbit i
  rw [hzero, htrue] at hself
  simp at hself

/-- **Unpacking** reads the bytes of a guid that are not zero and puts them where they were. -/
theorem unpackGuid_spec (guid : BitVec 64) (n i : ℕ) (hn : i + n = 8) (mask : Byte)
    (hmask : ∀ j, i ≤ j → j < 8 → mask.getLsbD j = (packLoop n i (guid >>> (8 * i))).1.getLsbD j)
    (acc : BitVec 64) (hacc : ∀ j, acc.getLsbD j = (decide (j < 8 * i) && guid.getLsbD j))
    (h : rest b = (packLoop n i (guid >>> (8 * i))).2 ++ l) : unpackGuid mask n i acc b =
      some (guid, skip b (packLoop n i (guid >>> (8 * i))).2.length) := by
  induction n generalizing i acc b with
  | zero =>
    have hfull : acc = guid := by
      refine BitVec.eq_of_getLsbD_eq fun j hj => ?_
      rw [hacc j]
      simp [show j < 8 * i by omega]
    rw [unpackGuid, hfull]
    rfl
  | succ n ih =>
    have hi : i < 8 := by omega
    have hshift : guid >>> (8 * i) >>> 8 = guid >>> (8 * (i + 1)) := by
      rw [← BitVec.shiftRight_add]
      congr 1
    have hbyte (j : ℕ) : ((guid >>> (8 * i)).setWidth 8).getLsbD j =
        (decide (j < 8) && guid.getLsbD (8 * i + j)) := by
      rw [BitVec.getLsbD_setWidth, BitVec.getLsbD_ushiftRight]
    rw [packLoop_succ, hshift] at h hmask ⊢
    rw [unpackGuid]
    by_cases hzero : (guid >>> (8 * i)).setWidth 8 ≠ 0
    · rw [if_pos hzero] at h hmask ⊢
      have hset : mask.getLsbD i = true := by
        rw [hmask i (Nat.le_refl _) hi, BitVec.getLsbD_or, BitVec.getLsbD_shiftLeft]
        simp [hi]
      rw [if_pos ((and_bit_ne_zero mask hi).mpr hset), readByte_of_rest h]
      dsimp only
      rw [ih (i + 1) (by omega) _ _ _ (rest_skip_one h), skip_skip, length_cons,
        Nat.add_comm]
      · intro j hj hj8
        rw [hmask j (by omega) hj8, BitVec.getLsbD_or, BitVec.getLsbD_shiftLeft,
          BitVec.getLsbD_one]
        simp [show j - i ≠ 0 by omega]
      intro j
      rw [BitVec.getLsbD_or, hacc, BitVec.getLsbD_shiftLeft, BitVec.getLsbD_setWidth, hbyte]
      by_cases hlow : j < 8 * i
      · simp [hlow, show j < i * 8 by omega, show j < 8 * (i + 1) by omega]
      have hidx : 8 * i + (j - i * 8) = j := by omega
      have hlt : (j - i * 8 < 8) = (j < 8 * (i + 1)) := by
        apply propext
        omega
      by_cases hj : j < 64
      · simp [hlow, hj, hidx, hlt, show ¬ j < i * 8 by omega, show j - i * 8 < 64 by omega]
      rw [BitVec.getLsbD_of_ge guid j (by omega)]
      simp [hj]
    rw [if_neg hzero] at h hmask ⊢
    have hclear : mask.getLsbD i = false := by
      rw [hmask i (Nat.le_refl _) hi, packLoop_mask_low _ _ _ (Nat.lt_succ_self i)]
    have hnot : ¬ mask &&& 1#8 <<< i ≠ 0 := fun hne => by
      rw [(and_bit_ne_zero mask hi).mp hne] at hclear
      cases hclear
    rw [if_neg hnot, ih (i + 1) (by omega) _ _ _ h]
    · exact fun j hj => hmask j (by omega)
    intro j
    rw [hacc]
    by_cases hlow : j < 8 * i
    · simp [hlow, show j < 8 * (i + 1) by omega]
    by_cases hnext : j < 8 * (i + 1)
    · have hbit := hbyte (j - 8 * i)
      rw [not_not.mp hzero, show 8 * i + (j - 8 * i) = j by omega] at hbit
      simp only [show j - 8 * i < 8 by omega, decide_true, Bool.true_and] at hbit
      simp [hlow, ← hbit]
    · simp [hlow, hnext]

/-! ### Bytes -/

def Write.bytes : Write → List Byte
  | .bit _ => []
  | .bits _ _ => []
  | .int type v => toBytes type.size v
  | .byteSeq byte => if byte ≠ 0 then [byte ^^^ 1] else []
  | .string s => s.chars ++ [0]
  | .packGuid guid => (packLoop 8 0 guid).1 :: (packLoop 8 0 guid).2
  | .flush => []

def Write.isBits : Write → Bool
  | .bit _ => true
  | .bits _ _ => true
  | _ => false

/-- **Bytes are read back** from where they are. -/
theorem read_bytes {w : Write} (hw : w.isBits = false) (h : rest b = w.bytes ++ l) :
    b.read w.read = some (w.value, skip b w.bytes.length) := by
  cases w with
  | bit | bits => cases hw
  | int type v =>
    simp only [Write.bytes] at h
    have hpos : 0 < (toBytes type.size v).length := by
      rw [length_toBytes]
      exact size_pos type
    have hread := readRaw_of_rest hpos h
    rw [length_toBytes] at hread
    simp only [Write.read, ByteBuffer.read, hread, Write.bytes, Write.value, length_toBytes,
      map_some, ofBytes_toBytes]
  | byteSeq byte =>
    simp only [Write.read, ByteBuffer.read, Write.bytes, Write.value] at h ⊢
    by_cases hzero : byte = 0
    · simp [hzero, ByteBuffer.readByteSeq, skip]
    rw [if_neg hzero]
    rw [if_pos hzero] at h
    rw [ByteBuffer.readByteSeq, if_pos (by decide), readByte_of_rest h]
    have hback : 1#8 ^^^ (byte ^^^ 1#8) = byte := by
      rw [BitVec.xor_comm byte, ← BitVec.xor_assoc, BitVec.xor_self, BitVec.zero_xor]
    simp [show byte ≠ 0#8 from hzero, hback]
  | string s =>
    simp only [Write.read, ByteBuffer.read, Write.bytes, Write.value] at h ⊢
    rw [append_assoc] at h
    have hlength := congrArg List.length h
    rw [rest, length_drop, length_append] at hlength
    have hread := readChars_of_rest s.chars s.nulFree (b.size - b.rpos) (by
      rw [size, hlength]
      simp) h
    rw [readString, hread, length_append]
    rfl
  | packGuid guid =>
    simp only [Write.read, ByteBuffer.read, Write.bytes, Write.value] at h ⊢
    have hread := unpackGuid_spec guid 8 0 rfl (packLoop 8 0 guid).1 (fun j _ _ => by simp) 0
      (fun j => by simp) (b := skip b 1) (l := l) (by
        rw [rest_skip_one h]
        simp)
    rw [readPackGUID, readByte_of_rest h]
    dsimp only
    rw [hread, skip_skip]
    simp [Nat.add_comm]
  | flush => rfl

end ZerosCore.Packets
