/-
# Packets that are sent

What is sent of a buffer is its storage: pending bits stay behind.  The receiver puts the bytes
into a new buffer and reads it from its start.

What is written bit by bit first and byte by byte then is read back from the storage and the
byte of the bits that are still pending (`sent_pieces`).  A reader that comes to its end in the
storage alone does the same if more follows (`Extends`), so that where bits are pending, no
reader gets to the end of what it should read.
-/

import ZerosCore.Packets.BitAlignment

namespace ZerosCore.Packets

open ByteBuffer List Option

variable {b b' r r' : ByteBuffer} {k n : ℕ} {c : Byte} {ps qs : List Piece}

def received (contents : List Byte) : ByteBuffer := ⟨0, contents.length, 8, 0, contents⟩

/-! ### Readers that do not come to the end -/

theorem put_received (contents tail : List Byte) :
    put (received contents) tail = received (contents ++ tail) := by
  simp [put, received]

/-- What this reads does not depend on the bytes that come after. -/
def Extends {α : Type} (read : ByteBuffer → Option (α × ByteBuffer)) : Prop :=
  ∀ b b' a tail, read b = some (a, b') → read (put b tail) = some (a, put b' tail)

theorem extends_readByte : Extends readByte := by
  intro b b' c tail h
  unfold readByte at h ⊢
  cases hget : b.storage[b.rpos]? with
  | none =>
    rw [hget] at h
    cases h
  | some d =>
    rw [hget] at h
    cases h
    have hlt := (List.getElem?_eq_some_iff.mp hget).1
    have hnext : (put b tail).storage[(put b tail).rpos]? = some c := by
      change (b.storage ++ tail)[b.rpos]? = some c
      rw [getElem?_append_left hlt, hget]
    rw [hnext]
    rfl

theorem extends_readBit : Extends readBit := by
  intro b b' bit tail h
  by_cases hpos : b.bitpos < 7
  · rw [readBit_same hpos] at h
    cases h
    exact readBit_same (r := put b tail) hpos
  cases hget : b.storage[b.rpos]? with
  | none =>
    have hnone : b.readBit = none := by
      rw [readBit, if_pos (by dsimp only; omega), readByte, hget]
    cases hnone.symm.trans h
  | some d =>
    rw [readBit_next (by omega) hget] at h
    cases h
    have hlt := (List.getElem?_eq_some_iff.mp hget).1
    refine readBit_next (r := put b tail) (by change 7 ≤ b.bitpos; omega) ?_
    change (b.storage ++ tail)[b.rpos]? = some d
    rw [getElem?_append_left hlt, hget]

theorem extends_readBits (n value : ℕ) : Extends (readBits n value) := by
  induction n generalizing value with
  | zero =>
    intro b b' v tail h
    cases h
    rfl
  | succ n ih =>
    intro b b' v tail h
    rw [readBits] at h ⊢
    cases hbit : b.readBit with
    | none =>
      rw [hbit] at h
      cases h
    | some p =>
      rw [hbit] at h
      rw [extends_readBit b p.2 p.1 tail hbit]
      exact ih _ p.2 b' v tail h

theorem extends_readByteSeq (byte : Byte) : Extends fun b => b.readByteSeq byte := by
  intro b b' a tail h
  simp only [readByteSeq] at h ⊢
  by_cases hzero : byte ≠ 0
  · rw [if_pos hzero] at h ⊢
    cases hread : b.readByte with
    | none =>
      rw [hread] at h
      cases h
    | some p =>
      rw [hread] at h
      cases h
      rw [extends_readByte b p.2 p.1 tail hread]
  rw [if_neg hzero] at h ⊢
  cases h
  rfl

theorem extends_readRaw (n : ℕ) : Extends fun b => b.readRaw n := by
  intro b b' l tail h
  simp only [readRaw] at h ⊢
  by_cases hsize : b.size < b.rpos + n
  · rw [if_pos hsize] at h
    cases h
  rw [if_neg hsize] at h
  cases h
  have hlonger : ¬ (put b tail).size < (put b tail).rpos + n := by
    simp only [put, size, length_append] at hsize ⊢
    omega
  rw [if_neg hlonger]
  have hsame : ((b.storage ++ tail).drop b.rpos).take n = (b.storage.drop b.rpos).take n := by
    simp only [size] at hsize
    rw [drop_append_of_le_length (by omega), take_append_of_le_length]
    rw [length_drop]
    omega
  change some (((b.storage ++ tail).drop b.rpos).take n, _) = _
  rw [hsame]
  rfl

theorem Extends.map {α β : Type} {read : ByteBuffer → Option (α × ByteBuffer)} (h : Extends read)
    (f : α → β) : Extends fun b => (read b).map fun r => (f r.1, r.2) := by
  intro b b' x tail hx
  obtain ⟨⟨a, b1⟩, hread, heq⟩ := map_eq_some_iff.mp hx
  cases heq
  dsimp only
  rw [h b b1 a tail hread]
  rfl

theorem Extends.bind {α β : Type} {read : ByteBuffer → Option (α × ByteBuffer)}
    {next : α → ByteBuffer → Option (β × ByteBuffer)} (h : Extends read)
    (hnext : ∀ a, Extends (next a)) : Extends fun b => (read b).bind fun r => next r.1 r.2 := by
  intro b b' x tail hx
  obtain ⟨⟨a, b1⟩, hread, heq⟩ := bind_eq_some_iff.mp hx
  dsimp only
  rw [h b b1 a tail hread]
  exact hnext a b1 b' x tail heq

/-! ### What stays behind -/

/-- The bits that are pending after these pieces, when `k` were before. -/
def pendingAfter : ℕ → List Piece → ℕ
  | k, [] => k
  | k, .bit _ :: ps => pendingAfter ((k + 1) % 8) ps
  | k, .bytes w :: ps => pendingAfter (if w.flushes then 0 else k) ps

/-- No write puts bytes before the pending bits. -/
def Plain (ps : List Piece) : Prop := ∀ w, .bytes w ∈ ps → w.isBits = false ∧ w.isRaw = false

theorem writing_writePieces (hps : Plain ps) (hb : Writing b) (h : writePieces ps b = some b') :
    Writing b' ∧ 8 - b'.bitpos = pendingAfter (8 - b.bitpos) ps := by
  induction ps generalizing b with
  | nil =>
    cases h
    exact ⟨hb, rfl⟩
  | cons p ps ih =>
    have hrest : Plain ps := fun w hw => hps w (mem_cons_of_mem p hw)
    obtain ⟨b1, hone, hmore⟩ := bind_eq_some_iff.mp h
    have hpos := hb.pos
    have hle := hb.le
    cases p with
    | bit bit =>
      have hwrite := (writeBit_fits hb bit).symm.trans hone
      by_cases hlast : b.bitpos = 1
      · rw [if_pos hlast] at hwrite
        split at hwrite
        · cases hwrite
          obtain ⟨hw, heq⟩ := ih hrest (Writing.clear hb.wpos_eq _) hmore
          refine ⟨hw, heq.trans ?_⟩
          rw [pendingAfter, hlast]
          change pendingAfter (8 - 8) ps = pendingAfter ((8 - 1 + 1) % 8) ps
          exact congrArg (pendingAfter · ps) (by decide)
        · cases hwrite
      rw [if_neg hlast] at hwrite
      cases hwrite
      obtain ⟨hw, heq⟩ := ih hrest (hb.putBit hlast bit) hmore
      refine ⟨hw, heq.trans ?_⟩
      rw [pendingAfter]
      congr 1
      change 8 - (b.bitpos - 1) = _
      omega
    | bytes w =>
      obtain ⟨hbits, hraw⟩ := hps w mem_cons_self
      have hwrite := (write_fits hb hbits fun h => by cases hraw.symm.trans h).symm.trans hone
      split at hwrite
      · cases hflush : w.flushes with
        | true =>
          rw [hflush, if_pos rfl] at hwrite
          cases hwrite
          obtain ⟨hw, heq⟩ := ih hrest (Writing.clear hb.wpos_eq _) hmore
          refine ⟨hw, heq.trans ?_⟩
          rw [pendingAfter, hflush]
          rfl
        | false =>
          rw [hflush, if_neg Bool.false_ne_true] at hwrite
          cases hwrite
          obtain ⟨hw, heq⟩ := ih hrest hb hmore
          refine ⟨hw, heq.trans ?_⟩
          rw [pendingAfter, hflush]
          rfl
      · cases hwrite

theorem pending_eq_nil_iff (hb : Writing b) : pending b = [] ↔ 8 - b.bitpos = 0 := by
  have hle := hb.le
  rw [pending]
  by_cases hpos : b.bitpos = 8
  · rw [if_pos hpos, hpos]
    exact ⟨fun _ => rfl, fun _ => rfl⟩
  rw [if_neg hpos]
  exact ⟨fun h => (by cases h), fun h => (by omega)⟩

/-- **What is sent** is read back from the storage and the byte of the pending bits. -/
theorem sent_pieces (hps : Plain ps) (hal : Aligned 0 false ps) (hfits : Fits 0 (sizes 0 ps)) :
    ∃ b r, writePieces ps .empty = some b ∧ (pending b = [] ↔ pendingAfter 0 ps = 0) ∧
      ReadsBack ps (received (b.storage ++ pending b)) r ∧ r.rpos = r.size := by
  have hback := readBack_of_aligned (fun w hw => (hps w hw).1) writing_empty hal
  obtain ⟨f, hf, -, -, -, hread⟩ := hback.fits hfits
  obtain ⟨b, hwrite, hflush⟩ := bind_eq_some_iff.mp hf
  obtain ⟨hb, hcount⟩ := writing_writePieces hps writing_empty hwrite
  rw [flush_fits hb] at hflush
  split at hflush
  · cases hflush
    obtain ⟨r, hr, hend⟩ := hread (received (b.storage ++ pending b))
      ⟨rfl, fun _ => ⟨rfl, fun _ => by change 7 ≤ 8; omega⟩, fun h => absurd rfl h⟩
    refine ⟨b, r, hwrite, ?_, hr, hend⟩
    rw [pending_eq_nil_iff hb, hcount]
    rfl
  · cases hflush

/-! ### Bits first -/

def AllBytes (ps : List Piece) : Prop := ∀ p ∈ ps, ∃ w, p = .bytes w

theorem aligned_bytes_only (hbytes : AllBytes ps) (hps : Plain ps) (k : ℕ) (stale : Bool) :
    Aligned k stale ps := by
  induction ps generalizing k stale with
  | nil => trivial
  | cons p ps ih =>
    obtain ⟨w, rfl⟩ := hbytes p mem_cons_self
    have hall : AllBytes ps := fun p hp => hbytes p (mem_cons_of_mem _ hp)
    have hrest : Plain ps := fun w hw => hps w (mem_cons_of_mem _ hw)
    refine ⟨fun hraw => ?_, ?_⟩
    · cases (hps w mem_cons_self).2.symm.trans hraw
    · split <;> exact ih hall hrest _ _

theorem aligned_bits_first (bits : List Bool) (hbytes : AllBytes ps) (hps : Plain ps) (k : ℕ) :
    Aligned k false (bits.map .bit ++ ps) := by
  induction bits generalizing k with
  | nil => exact aligned_bytes_only hbytes hps k false
  | cons bit bits ih => exact ⟨rfl, ih _⟩

theorem pendingAfter_bytes (hbytes : AllBytes ps) (k : ℕ) : pendingAfter k ps = 0 ↔
    k = 0 ∨ ∃ w, .bytes w ∈ ps ∧ w.flushes = true := by
  induction ps generalizing k with
  | nil => simp [pendingAfter]
  | cons p ps ih =>
    obtain ⟨w, rfl⟩ := hbytes p mem_cons_self
    have hall : AllBytes ps := fun p hp => hbytes p (mem_cons_of_mem _ hp)
    rw [pendingAfter, ih hall]
    constructor
    · rintro (hzero | ⟨w', hw', hflush⟩)
      · cases hflush : w.flushes with
        | true => exact .inr ⟨w, mem_cons_self, hflush⟩
        | false =>
          rw [hflush] at hzero
          exact .inl hzero
      · exact .inr ⟨w', mem_cons_of_mem _ hw', hflush⟩
    rintro (hzero | ⟨w', hw', hflush⟩)
    · rw [hzero, ite_self]
      exact .inl rfl
    rcases mem_cons.mp hw' with heq | hin
    · cases heq
      exact .inl (if_pos hflush)
    · exact .inr ⟨w', hin, hflush⟩

theorem pendingAfter_bits (bits : List Bool) (ps : List Piece) (hk : k < 8) :
    pendingAfter k (bits.map .bit ++ ps) = pendingAfter ((k + bits.length) % 8) ps := by
  induction bits generalizing k with
  | nil =>
    rw [map_nil, nil_append, length_nil, Nat.add_zero, Nat.mod_eq_of_lt hk]
  | cons bit bits ih =>
    rw [map_cons, cons_append, pendingAfter, ih (Nat.mod_lt _ (by omega)),
      length_cons]
    congr 1
    omega

/-! ### Room -/

theorem fits_of_sum_lt {sizes : List ℕ} (h : n + sizes.sum < maxSize) : Fits n sizes := by
  induction sizes generalizing n with
  | nil => trivial
  | cons size sizes ih =>
    rw [sum_cons] at h
    exact ⟨by omega, ih (by omega)⟩

theorem sum_gap_le (k : ℕ) : (gap k).sum ≤ 1 := by
  rw [gap]
  split
  · exact Nat.zero_le 1
  · exact Nat.le_refl 1

theorem sum_sizes_le (m : ℕ) (hps : ∀ w, .bytes w ∈ ps → ∀ k, (w.appends k).sum ≤ m) (hm : 1 ≤ m) :
    (sizes k ps).sum ≤ m * ps.length + 1 := by
  induction ps generalizing k with
  | nil =>
    have hgap := sum_gap_le k
    rw [sizes]
    omega
  | cons p ps ih =>
    have hrest := fun k => ih (k := k) fun w hw => hps w (mem_cons_of_mem p hw)
    rw [length_cons, Nat.mul_succ]
    cases p with
    | bit bit =>
      have hbit := hrest ((k + 1) % 8)
      rw [sizes, sum_append]
      split
      · rw [sum_singleton]
        omega
      rw [sum_nil]
      omega
    | bytes w =>
      have hw := hps w mem_cons_self k
      have hbytes := hrest (if w.flushes then 0 else k)
      rw [sizes, sum_append]
      omega

end ZerosCore.Packets
