/-
# The round trip of a byte buffer

The writer and the reader have a cursor for the bits each.  The writer starts a new byte of
bits after each flush, and every write of bytes flushes; the reader goes on to a new byte only
when it has read all eight bits of the one it has, and no read of bytes changes that.  The
reader is stale when it has left bits of a byte unread that the writer has flushed: the next
bit it reads is one that was never written.  And where characters or the bytes of a packed
guid are put before the pending bits, the reader takes the first of them for the byte of the
bits.

If no bit is written where the reader is stale, and no such bytes where bits are pending, a
sequence of writes is read back exactly if it fits into the buffer; if not, some sequence of
the same shape is not read back (`round_trip`).
-/

import ZerosCore.Packets.Writer

namespace ZerosCore.Packets

open ByteBuffer List Option

variable {b b' r r' : ByteBuffer} {l l' : List Byte} {c : Byte}

/-! ### The reader beside the writer -/

theorem bit_at (c : Byte) (n : ℕ) : ((c >>> n) &&& 1 != 0) = c.getLsbD n := by
  have hbit (j : ℕ) : ((c >>> n) &&& 1#8).getLsbD j = (decide (j = 0) && c.getLsbD n) := by
    rw [BitVec.getLsbD_and, BitVec.getLsbD_ushiftRight, BitVec.getLsbD_one]
    by_cases hj : j = 0 <;> simp [hj]
  cases hn : c.getLsbD n with
  | false =>
    have hzero : (c >>> n) &&& 1#8 = 0#8 := BitVec.eq_of_getLsbD_eq fun j _ => by
      rw [hbit, hn]
      simp
    change ((c >>> n) &&& 1#8 != 0#8) = false
    rw [hzero]
    rfl
  | true =>
    change ((c >>> n) &&& 1#8 != 0#8) = true
    rw [bne_iff_ne]
    intro hzero
    have hself := hbit 0
    rw [hzero, hn] at hself
    simp at hself

theorem readBit_next (hpos : 7 ≤ r.bitpos) (hget : r.storage[r.rpos]? = some c) :
    r.readBit = some (c.getLsbD 7, { r with rpos := r.rpos + 1, bitpos := 0, curbitval := c }) := by
  rw [readBit, if_pos (by dsimp only; omega), readByte, hget]
  simp only [currentBit, bit_at]

theorem readBit_same (hpos : r.bitpos < 7) :
    r.readBit = some (r.curbitval.getLsbD (6 - r.bitpos), { r with bitpos := r.bitpos + 1 }) := by
  rw [readBit, if_neg (by dsimp only; omega)]
  simp only [currentBit, bit_at]
  rw [show 7 - (r.bitpos + 1) = 6 - r.bitpos by omega]

/-- The storage `f` at the end begins with what was written, and the byte after it has the
pending bits. -/
def Future (b : ByteBuffer) (f : List Byte) : Prop :=
  ∃ tail, f = b.storage ++ tail ∧ (b.bitpos ≠ 8 → ∃ c l, tail = c :: l ∧
    ∀ j, b.bitpos ≤ j → j < 8 → c.getLsbD j = b.curbitval.getLsbD j)

/-- The reader `r` of the storage `f` has read what the writer `b` has written, and the byte of
the pending bits.  If no bits are pending it is at a new byte, unless it is stale: it has read
a byte of bits in part only. -/
structure Sync (b r : ByteBuffer) (f : List Byte) (stale : Bool) : Prop where
  storage : r.storage = f
  idle : b.bitpos = 8 → r.rpos = b.size ∧ (stale = false → 7 ≤ r.bitpos)
  busy : b.bitpos ≠ 8 → stale = false ∧ r.rpos = b.size + 1 ∧ r.bitpos + b.bitpos = 7 ∧
    f[b.size]? = some r.curbitval

/-- The reader is at a byte for the bits that are written: bits are written where `k` bits are
pending and the reader is not stale, and raw bytes where no bits are pending. -/
def Aligned : ℕ → Bool → List Piece → Prop
  | _, _, [] => True
  | k, stale, .bit _ :: ps => stale = false ∧ Aligned ((k + 1) % 8) false ps
  | k, stale, .bytes w :: ps =>
    (w.isRaw = true → k = 0) ∧
      if w.flushes then Aligned 0 (stale || k != 0) ps else Aligned k stale ps

def sizes : ℕ → List Piece → List ℕ
  | k, [] => gap k
  | k, .bit _ :: ps => (if k = 7 then [1] else []) ++ sizes ((k + 1) % 8) ps
  | k, .bytes w :: ps => w.appends k ++ sizes (if w.flushes then 0 else k) ps

/-- What comes of writing pieces and flushing: a buffer they are read back from if they fit, and
nothing if they do not. -/
structure ReadBack (ps : List Piece) (b : ByteBuffer) (stale : Bool) : Prop where
  fits : Fits b.size (sizes (8 - b.bitpos) ps) →
    ∃ f, (writePieces ps b).bind flushBits = some f ∧ f.rpos = b.rpos ∧ f.bitpos = 8 ∧
      Future b f.storage ∧
        ∀ r, Sync b r f.storage stale → ∃ r', ReadsBack ps r r' ∧ r'.rpos = r'.size
  fails : ¬ Fits b.size (sizes (8 - b.bitpos) ps) → (writePieces ps b).bind flushBits = none

theorem readBack_nil (hb : Writing b) (stale : Bool) : ReadBack [] b stale := by
  have hflush := flush_fits hb
  constructor
  · intro hfits
    rw [sizes] at hfits
    rw [if_pos hfits] at hflush
    refine ⟨_, hflush, rfl, rfl, ⟨pending b, rfl, fun hpos => ?_⟩, fun r hr => ⟨r, rfl, ?_⟩⟩
    · exact ⟨b.curbitval, [], if_neg hpos, fun _ _ _ => rfl⟩
    rw [size, hr.storage]
    simp only [clearBits, put, length_append, pending]
    by_cases hpos : b.bitpos = 8
    · rw [(hr.idle hpos).1, if_pos hpos]
      rfl
    rw [(hr.busy hpos).2.1, if_neg hpos]
    rfl
  intro hfits
  rw [sizes] at hfits
  rw [if_neg hfits] at hflush
  exact hflush

variable {p : Piece} {ps : List Piece} {stale : Bool}

theorem ReadBack.cons (b' : ByteBuffer) (stale' : Bool)
    (P : Prop) [Decidable P] (hwrite : writePiece b p = if P then some b' else none)
    (hsizes : Fits b.size (sizes (8 - b.bitpos) (p :: ps)) ↔
      P ∧ Fits b'.size (sizes (8 - b'.bitpos) ps))
    (hrpos : b'.rpos = b.rpos) (hfuture : ∀ f, Future b' f → Future b f)
    (hread : ∀ f r, Future b' f → Sync b r f stale → ∃ r1, ReadsBack [p] r r1 ∧ Sync b' r1 f stale')
    (h : ReadBack ps b' stale') : ReadBack (p :: ps) b stale := by
  constructor
  · intro hfits
    obtain ⟨hp, hrest⟩ := hsizes.mp hfits
    obtain ⟨f, hf, hfrpos, hfpos, hnext, hreads⟩ := h.fits hrest
    refine ⟨f, ?_, hfrpos.trans hrpos, hfpos, hfuture _ hnext, fun r hr => ?_⟩
    · rw [writePieces, hwrite, if_pos hp]
      exact hf
    obtain ⟨r1, hone, hsync⟩ := hread f.storage r hnext hr
    obtain ⟨r', hback, hend⟩ := hreads r1 hsync
    exact ⟨r', (readsBack_append [p] ps r r').mpr ⟨r1, hone, hback⟩, hend⟩
  intro hfits
  rw [writePieces, hwrite]
  split
  · rename_i hp
    exact h.fails fun hrest => hfits (hsizes.mpr ⟨hp, hrest⟩)
  · rfl

variable {f : List Byte}

/-- **A bit is read back**: the first of a byte from the byte the reader goes on to, the others
from the byte it has. -/
theorem readBit_sync (hb : Writing b) (hr : Sync b r f false) (bit : Bool)
    (hput : Future (b.putBit bit) f) : ∃ r', r.readBit = some (bit, r') ∧
      r'.storage = f ∧ r'.rpos = b.size + 1 ∧ r'.bitpos + b.bitpos = 8 ∧
        f[b.size]? = some r'.curbitval := by
  have hpos := hb.pos
  have hle := hb.le
  obtain ⟨tail, hf, hpending⟩ := hput
  have hset : (b.putBit bit).bitpos = b.bitpos - 1 := rfl
  obtain ⟨c, l, htail, hbits⟩ := hpending (by omega)
  have hget : f[b.size]? = some c := by
    rw [hf, htail, size]
    exact getElem?_append_right (Nat.le_refl _) |>.trans (by simp [ByteBuffer.putBit])
  have hbit : c.getLsbD (b.bitpos - 1) = bit := by
    rw [hbits (b.bitpos - 1) (Nat.le_refl _) (by omega), getLsbD_putBit hb bit _ (by omega),
      if_pos rfl]
  by_cases hfull : b.bitpos = 8
  · obtain ⟨hrpos, hnext⟩ := hr.idle hfull
    have hread := readBit_next (r := r) (c := c) (hnext rfl) (by rw [hr.storage, hrpos, hget])
    rw [hfull] at hbit
    rw [hbit] at hread
    exact ⟨_, hread, hr.storage, congrArg (· + 1) hrpos, by dsimp only; omega, hget⟩
  obtain ⟨-, hrpos, hcursor, hcur⟩ := hr.busy hfull
  have hsame : r.curbitval = c := some.inj (hcur.symm.trans hget)
  have hread := readBit_same (r := r) (by omega)
  rw [hsame, show 6 - r.bitpos = b.bitpos - 1 by omega, hbit] at hread
  exact ⟨_, hread, hr.storage, hrpos, by dsimp only; omega, hget⟩

variable {bit : Bool}

theorem Future.of_putBit (hb : Writing b) (h : Future (b.putBit bit) f) : Future b f := by
  obtain ⟨tail, hf, hpending⟩ := h
  have hpos := hb.pos
  have hle := hb.le
  have hset : (b.putBit bit).bitpos = b.bitpos - 1 := rfl
  refine ⟨tail, hf, fun _ => ?_⟩
  obtain ⟨c, l, htail, hbits⟩ := hpending (by omega)
  refine ⟨c, l, htail, fun j hj hj8 => ?_⟩
  rw [hbits j (by omega) hj8, getLsbD_putBit hb bit j hj8, if_neg (by omega)]

theorem readBack_bit (hb : Writing b) (bit : Bool)
    (ih : ∀ b', Writing b' → 8 - b'.bitpos = (8 - b.bitpos + 1) % 8 → ReadBack ps b' false) :
    ReadBack (.bit bit :: ps) b false := by
  have hpos := hb.pos
  have hle := hb.le
  have hwrite := writeBit_fits hb bit
  by_cases hone : b.bitpos = 1
  · -- the byte is full
    rw [if_pos hone] at hwrite
    have hset : (b.putBit bit).bitpos = 0 := by simp [putBit, hone]
    have hlength (c : Byte) : (clearBits (put b [c])).size = b.size + 1 := by
      simp [size, clearBits, put]
    have hstored {f : List Byte} (hf : Future (clearBits (put b [(b.putBit bit).curbitval])) f) :
        Future (b.putBit bit) f := by
      obtain ⟨tail, htail, -⟩ := hf
      refine ⟨(b.putBit bit).curbitval :: tail, ?_, fun _ => ⟨_, tail, rfl, fun _ _ _ => rfl⟩⟩
      rw [htail]
      simp [clearBits, put, putBit]
    refine ReadBack.cons _ false _ hwrite ?_ rfl (fun f hf => (hstored hf).of_putBit hb)
      (fun f r hf hr => ?_) (ih _ (.clear hb.wpos_eq _) (by simp [clearBits, hone]))
    · rw [hlength]
      simp [sizes, hone, clearBits, Fits]
    obtain ⟨r', hread, hstorage, hrpos, hcursor, -⟩ := readBit_sync hb hr bit (hstored hf)
    refine ⟨r', ⟨r', hread, rfl⟩, hstorage, fun _ => ⟨?_, fun _ => by omega⟩, fun h => absurd rfl h⟩
    rw [hrpos, hlength]
  rw [if_neg hone] at hwrite
  have hset : (b.putBit bit).bitpos = b.bitpos - 1 := rfl
  refine ReadBack.cons (b.putBit bit) false True
    (hwrite.trans (if_pos trivial).symm) ?_ rfl (fun f hf => hf.of_putBit hb)
    (fun f r hf hr => ?_) (ih _ (hb.putBit hone bit) (by omega))
  · have hk : (8 - b.bitpos + 1) % 8 = 8 - (b.putBit bit).bitpos := by omega
    have hlast : (if 8 - b.bitpos = 7 then [1] else []) = ([] : List ℕ) := if_neg (by omega)
    rw [sizes, hlast, hk, nil_append, true_and]
    rfl
  obtain ⟨r', hread, hstorage, hrpos, hcursor, hcur⟩ := readBit_sync hb hr bit hf
  exact ⟨r', ⟨r', hread, rfl⟩, hstorage, fun h => by omega,
    fun _ => ⟨rfl, hrpos, by omega, hcur⟩⟩

variable {w : Write}

theorem nothing_of_no_flush (hw : w.isBits = false) (hflush : w.flushes = false)
    (k : ℕ) : w.bytes = [] ∧ w.appends k = [] := by
  cases w with
  | bit | bits => cases hw
  | byteSeq byte =>
    have hzero : byte = 0 := by simpa [Write.flushes] using hflush
    simp [Write.bytes, Write.appends, hzero]
  | _ => cases hflush

theorem sum_appends (hw : w.isBits = false) (hflush : w.flushes = true) {k : ℕ}
    (hraw : w.isRaw = true → k = 0) : (w.appends k).sum = (gap k).sum + w.bytes.length := by
  cases w with
  | bit | bits => cases hw
  | int type v => simp [Write.appends, Write.bytes, length_toBytes]
  | byteSeq byte =>
    have hne : byte ≠ 0#8 := by simpa [Write.flushes] using hflush
    simp [Write.appends, Write.bytes, hne]
  | string s =>
    by_cases hempty : s.chars = []
    · simp [Write.appends, Write.bytes, hempty]
    simp [Write.appends, Write.bytes, hempty]
    omega
  | packGuid guid =>
    rw [hraw rfl]
    simp [Write.appends, Write.bytes, gap]
  | flush => simp [Write.appends, Write.bytes]

theorem size_clear_put (b : ByteBuffer) (src : List Byte) :
    (clearBits (put b src)).size = b.size + src.length := by
  simp [size, clearBits, put]

theorem length_pending (hb : Writing b) : (pending b).length = (gap (8 - b.bitpos)).sum := by
  rw [gap_eq hb]
  simp

theorem Sync.rest_eq (hr : Sync b r (b.storage ++ (pending b ++ l)) stale) : rest r = l := by
  rw [rest, hr.storage, pending]
  by_cases hpos : b.bitpos = 8
  · rw [(hr.idle hpos).1, if_pos hpos, size, drop_left, nil_append]
  rw [(hr.busy hpos).2.1, if_neg hpos, size, ← drop_drop, drop_left]
  rfl

/-- The reader of bytes goes on behind them; it is stale if it left bits unread. -/
theorem Sync.bytes (hb : Writing b) {src : List Byte} (hr : Sync b r f stale) :
    Sync (clearBits (put b (pending b ++ src))) (skip r src.length) f
      (stale || 8 - b.bitpos != 0) := by
  refine ⟨hr.storage, fun _ => ?_, fun h => absurd rfl h⟩
  rw [size_clear_put, length_append, pending]
  by_cases hpos : b.bitpos = 8
  · obtain ⟨hrpos, hnext⟩ := hr.idle hpos
    refine ⟨?_, fun hstale => hnext ?_⟩
    · rw [skip, hrpos, if_pos hpos]
      simp
    cases stale with
    | false => rfl
    | true => cases hstale
  obtain ⟨-, hrpos, -, -⟩ := hr.busy hpos
  refine ⟨?_, fun hstale => ?_⟩
  · rw [skip, hrpos, if_neg hpos]
    simp [Nat.add_assoc]
  have hle := hb.le
  rw [Bool.or_eq_false_iff, bne_eq_false_iff_eq] at hstale
  omega

/-- **Bytes are read back**, after the byte of the bits that were pending. -/
theorem readBack_bytes (hb : Writing b) (hw : w.isBits = false)
    (hraw : w.isRaw = true → b.bitpos = 8) (ih : ∀ b' stale', Writing b' →
      (w.flushes = true → b'.bitpos = 8 ∧ stale' = (stale || 8 - b.bitpos != 0)) →
      (w.flushes = false → b' = b ∧ stale' = stale) → ReadBack ps b' stale') :
    ReadBack (.bytes w :: ps) b stale := by
  have hwrite := write_fits hb hw hraw
  cases hflush : w.flushes with
  | false =>
    obtain ⟨hbytes, happends⟩ := nothing_of_no_flush hw hflush (8 - b.bitpos)
    rw [hflush, happends] at hwrite
    refine ReadBack.cons b stale True
      (hwrite.trans (if_pos trivial)) ?_ rfl (fun _ hf => hf) (fun f r hf hr => ⟨r, ⟨r, ?_, rfl⟩, hr⟩)
      (ih b stale hb (fun h => by rw [hflush] at h; cases h) fun _ => ⟨rfl, rfl⟩)
    · rw [sizes, happends, hflush]
      simp
    have hread := read_bytes (b := r) (l := rest r) hw (by rw [hbytes, nil_append])
    rw [hbytes] at hread
    exact hread
  | true =>
    rw [hflush] at hwrite
    have hclear : Writing (clearBits (put b (pending b ++ w.bytes))) := .clear hb.wpos_eq _
    have hzero (h : w.isRaw = true) : 8 - b.bitpos = 0 := by
      rw [hraw h]
    refine ReadBack.cons (clearBits (put b (pending b ++ w.bytes)))
      (stale || 8 - b.bitpos != 0) _ hwrite ?_ rfl (fun f hf => ?_) (fun f r hf hr => ?_)
      (ih _ _ hclear (fun _ => ⟨rfl, rfl⟩) fun h => by rw [hflush] at h; cases h)
    · rw [sizes, hflush, fits_append, size_clear_put, length_append, length_pending hb,
        sum_appends hw hflush hzero]
      rfl
    · obtain ⟨tail, htail, -⟩ := hf
      refine ⟨pending b ++ w.bytes ++ tail, ?_, fun hpos => ?_⟩
      · rw [htail]
        simp [clearBits, put]
      · exact ⟨b.curbitval, w.bytes ++ tail, by simp [pending, hpos], fun _ _ _ => rfl⟩
    obtain ⟨tail, htail, -⟩ := hf
    have hstored : f = b.storage ++ (pending b ++ (w.bytes ++ tail)) := by
      rw [htail]
      simp [clearBits, put]
    have hrest : rest r = w.bytes ++ tail := Sync.rest_eq (b := b) (by rw [← hstored]; exact hr)
    exact ⟨skip r w.bytes.length, ⟨_, read_bytes hw hrest, rfl⟩, hr.bytes hb⟩

theorem readBack_of_aligned (hps : ∀ w, .bytes w ∈ ps → w.isBits = false)
    (hb : Writing b) (h : Aligned (8 - b.bitpos) stale ps) :
    ReadBack ps b stale := by
  induction ps generalizing b stale with
  | nil => exact readBack_nil hb stale
  | cons p ps ih =>
    have hrest : ∀ w, .bytes w ∈ ps → w.isBits = false := fun w hw =>
      hps w (mem_cons_of_mem p hw)
    cases p with
    | bit bit =>
      obtain ⟨rfl, hal⟩ := h
      exact readBack_bit hb bit fun b' hb' hk => ih hrest hb' (hk ▸ hal)
    | bytes w =>
      obtain ⟨hraw, hal⟩ := h
      have hle := hb.le
      refine readBack_bytes hb (hps w mem_cons_self) (fun h => ?_) fun b' stale' hb' hyes hno => ?_
      · have hzero := hraw h
        have hpos := hb.pos
        omega
      cases hflush : w.flushes with
      | true =>
        obtain ⟨hpos, rfl⟩ := hyes hflush
        rw [hflush, if_pos rfl] at hal
        refine ih hrest hb' ?_
        rw [hpos]
        exact hal
      | false =>
        obtain ⟨rfl, rfl⟩ := hno hflush
        rw [hflush] at hal
        exact ih hrest hb' hal

/-! ### What is not aligned -/

/-- A bit that is set, or bytes that put no set bit in the place of the first pending one. -/
def Worst : Piece → Prop
  | .bit bit => bit = true
  | .bytes w => w.isBits = false ∧ (w.isRaw = true → ∃ c l, w.bytes = c :: l ∧ c.getLsbD 7 = false)

theorem write_grows (hb : Writing b) (hw : w.isBits = false)
    (h : b.write w = some b') : Writing b' ∧ b'.rpos = b.rpos ∧
      ∃ tail, b'.storage = b.storage ++ tail ∧
        (w.isRaw = true → ∃ c l l', w.bytes = c :: l ∧ tail = c :: l') := by
  by_cases hraw : w.isRaw = true
  · cases w with
    | string s =>
      have hne : s.chars ≠ [] := by simpa [Write.isRaw] using hraw
      simp only [ByteBuffer.write, ByteBuffer.writeString] at h
      rw [if_pos hne, appendRaw_eq hb.wpos_eq] at h
      split at h
      · have hput : Writing (put b s.chars) :=
          ⟨by simp [put, size, hb.wpos_eq], hb.pos, hb.le, hb.low⟩
        rw [bind_some, append_fits hput (by simp)] at h
        split at h
        · cases h
          obtain ⟨c, l, hl⟩ := exists_cons_of_ne_nil hne
          refine ⟨.clear hput.wpos_eq _, rfl, s.chars ++ (pending (put b s.chars) ++ [0]), ?_,
            fun _ => ⟨c, l ++ [0], l ++ (pending (put b s.chars) ++ [0]), ?_, ?_⟩⟩
          · simp [clearBits, put]
          · rw [Write.bytes, hl]
            rfl
          rw [hl]
          rfl
        · cases h
      · cases h
    | packGuid guid =>
      simp only [ByteBuffer.write, ByteBuffer.appendPackGUID] at h
      rw [appendRaw_eq hb.wpos_eq] at h
      split at h
      · cases h
        refine ⟨⟨?_, hb.pos, hb.le, hb.low⟩, rfl, _, rfl, fun _ => ⟨_, _, _, rfl, rfl⟩⟩
        simp [put, size, hb.wpos_eq]
      · cases h
    | _ => cases hraw
  rw [write_fits hb hw fun h => absurd h hraw] at h
  split at h
  · cases h
    split
    · refine ⟨.clear hb.wpos_eq _, rfl, pending b ++ w.bytes, ?_, fun h => absurd h hraw⟩
      simp [clearBits, put]
    · exact ⟨hb, rfl, [], (append_nil _).symm, fun h => absurd h hraw⟩
  · cases h

theorem writePiece_grows (hb : Writing b) (hp : Worst p) (h : writePiece b p = some b') :
    Writing b' ∧ b'.rpos = b.rpos ∧ ∃ tail, b'.storage = b.storage ++ tail := by
  cases p with
  | bit bit =>
    rw [writePiece, writeBit_fits hb] at h
    split at h
    · split at h
      · cases h
        exact ⟨.clear hb.wpos_eq _, rfl, _, rfl⟩
      · cases h
    rename_i hone
    cases h
    exact ⟨hb.putBit hone bit, rfl, [], (append_nil _).symm⟩
  | bytes w =>
    obtain ⟨hb', hrpos, tail, htail, -⟩ := write_grows hb hp.1 h
    exact ⟨hb', hrpos, tail, htail⟩

theorem writePieces_grows (hps : ∀ p ∈ ps, Worst p) (hb : Writing b)
    {f : ByteBuffer} (h : (writePieces ps b).bind flushBits = some f) :
    f.rpos = b.rpos ∧ f.bitpos = 8 ∧ ∃ tail, f.storage = b.storage ++ tail := by
  induction ps generalizing b with
  | nil =>
    rw [writePieces, bind_some, flush_fits hb] at h
    split at h
    · cases h
      exact ⟨rfl, rfl, _, rfl⟩
    · cases h
  | cons p ps ih =>
    rw [writePieces, bind_assoc, bind_eq_some_iff] at h
    obtain ⟨b', hp, hrest⟩ := h
    obtain ⟨hb', hrpos, tail, htail⟩ := writePiece_grows hb (hps p mem_cons_self) hp
    obtain ⟨hrpos', hfpos, tail', htail'⟩ :=
      ih (fun q hq => hps q (mem_cons_of_mem p hq)) hb' hrest
    exact ⟨hrpos'.trans hrpos, hfpos, tail ++ tail', by rw [htail', htail, append_assoc]⟩

/-- The reader of set bits: a stale one has a clear bit ahead, and the byte of pending bits
begins with a set one. -/
structure Watched (b r : ByteBuffer) (f : List Byte) (stale : Bool) : Prop
    extends Sync b r f stale where
  ahead : b.bitpos = 8 → stale = true → r.bitpos < 7 ∧ r.curbitval.getLsbD (6 - r.bitpos) = false
  first : b.bitpos ≠ 8 → r.curbitval.getLsbD 7 = true

theorem aligned_bit (hb : Writing b) (hr : Watched b r f stale)
    (hread : r.readBit = some (true, r')) (hwrite : b.writeBit true = some b') :
    stale = false ∧ Watched b' r' f false ∧ 8 - b'.bitpos = (8 - b.bitpos + 1) % 8 := by
  have hpos := hb.pos
  have hle := hb.le
  rw [writeBit_fits hb] at hwrite
  by_cases hfull : b.bitpos = 8
  · obtain ⟨hrpos, hnext⟩ := hr.idle hfull
    rw [if_neg (by omega)] at hwrite
    cases hwrite
    have hset : (b.putBit true).bitpos = b.bitpos - 1 := rfl
    cases stale with
    | true =>
      obtain ⟨hlt, hclear⟩ := hr.ahead hfull rfl
      rw [readBit_same hlt, hclear] at hread
      cases hread
    | false =>
      have hcursor := hnext rfl
      cases hget : r.storage[r.rpos]? with
      | none =>
        rw [readBit, if_pos (by dsimp only; omega), readByte, hget] at hread
        cases hread
      | some c =>
        rw [readBit_next hcursor hget] at hread
        simp only [some.injEq, Prod.mk.injEq] at hread
        obtain ⟨htop, rfl⟩ := hread
        refine ⟨rfl, ⟨⟨hr.storage, fun h => by omega, fun _ => ⟨rfl, congrArg (· + 1) hrpos, ?_, ?_⟩⟩,
          fun h => by omega, fun _ => htop⟩, by omega⟩
        · dsimp only
          omega
        rw [← hr.storage]
        change r.storage[b.size]? = _
        rw [← hrpos, hget]
  obtain ⟨rfl, hrpos, hcursor, hcur⟩ := hr.busy hfull
  rw [readBit_same (by omega)] at hread
  simp only [some.injEq, Prod.mk.injEq] at hread
  obtain ⟨-, rfl⟩ := hread
  by_cases hone : b.bitpos = 1
  · rw [if_pos hone] at hwrite
    split at hwrite
    · cases hwrite
      refine ⟨rfl, ⟨⟨hr.storage, fun _ => ⟨?_, fun _ => ?_⟩, fun h => absurd rfl h⟩,
        fun _ h => (by cases h), fun h => absurd rfl h⟩, ?_⟩
      · rw [size_clear_put]
        exact hrpos
      · dsimp only
        omega
      · simp [clearBits, hone]
    · cases hwrite
  rw [if_neg hone] at hwrite
  cases hwrite
  have hset : (b.putBit true).bitpos = b.bitpos - 1 := rfl
  refine ⟨rfl, ⟨⟨hr.storage, fun h => by omega, fun _ => ⟨rfl, hrpos, ?_, hcur⟩⟩,
    fun h => by omega, fun _ => hr.first hfull⟩, by omega⟩
  dsimp only
  omega

variable {tail : List Byte}

/-- **Raw bytes are read back** only where no bits are pending; else the byte of the first
pending bit is one of them. -/
theorem raw_idle (hb : Writing b) (hw : Worst (.bytes w))
    (hr : Watched b r f stale) (hwrite : b.write w = some b')
    (hf : f = b'.storage ++ tail) (hraw : w.isRaw = true) : b.bitpos = 8 := by
  by_contra hpos
  obtain ⟨c, l, hbytes, htop⟩ := hw.2 hraw
  obtain ⟨-, -, grown, hgrown, hhead⟩ := write_grows hb hw.1 hwrite
  obtain ⟨c', l', tail', hbytes', htail'⟩ := hhead hraw
  obtain ⟨-, -, -, hcur⟩ := hr.busy hpos
  rw [hbytes] at hbytes'
  cases hbytes'
  have hget : f[b.size]? = some c := by
    rw [hf, hgrown, htail', append_assoc, size]
    exact (getElem?_append_right (Nat.le_refl _)).trans (by simp)
  have hfirst := hr.first hpos
  rw [some.inj (hcur.symm.trans hget), htop] at hfirst
  cases hfirst

theorem aligned_bytes (hb : Writing b) (hw : Worst (.bytes w))
    (hr : Watched b r f stale) (hread : r.read w.read = some (w.value, r'))
    (hwrite : b.write w = some b') (hf : f = b'.storage ++ tail)
    (hraw : w.isRaw = true → b.bitpos = 8) (hflush : w.flushes = true) :
    b'.bitpos = 8 ∧ Watched b' r' f (stale || 8 - b.bitpos != 0) := by
  rw [write_fits hb hw.1 hraw, hflush] at hwrite
  split at hwrite
  · rw [if_pos rfl] at hwrite
    cases hwrite
    have hstored : f = b.storage ++ (pending b ++ (w.bytes ++ tail)) := by
      rw [hf]
      simp [clearBits, put]
    have hrest : rest r = w.bytes ++ tail :=
      Sync.rest_eq (b := b) (by rw [← hstored]; exact hr.toSync)
    rw [read_bytes hw.1 hrest] at hread
    cases hread
    refine ⟨rfl, hr.toSync.bytes hb, fun _ hstale => ?_, fun h => absurd rfl h⟩
    by_cases hpos : b.bitpos = 8
    · refine hr.ahead hpos ?_
      rw [hpos] at hstale
      simpa using hstale
    -- what the flush left clear
    have hbpos := hb.pos
    obtain ⟨-, -, hcursor, hcur⟩ := hr.busy hpos
    have hget : f[b.size]? = some b.curbitval := by
      rw [hstored, pending, if_neg hpos, size]
      exact (getElem?_append_right (Nat.le_refl _)).trans (by simp)
    rw [show (skip r w.bytes.length).curbitval = b.curbitval from
      some.inj (hcur.symm.trans hget)]
    change r.bitpos < 7 ∧ b.curbitval.getLsbD (6 - r.bitpos) = false
    exact ⟨by omega, hb.low _ (by omega)⟩
  · cases hwrite

/-- **What is not aligned is not read back**, if all bits are set and no raw bytes look like
them. -/
theorem aligned_of_readsBack (hps : ∀ p ∈ ps, Worst p) (hb : Writing b)
    {f : ByteBuffer} (h : (writePieces ps b).bind flushBits = some f)
    (hr : Watched b r f.storage stale) (hread : ReadsBack ps r r') :
    Aligned (8 - b.bitpos) stale ps := by
  induction ps generalizing b r stale with
  | nil => trivial
  | cons p ps ih =>
    have hrest : ∀ q ∈ ps, Worst q := fun q hq => hps q (mem_cons_of_mem p hq)
    have hp := hps p mem_cons_self
    rw [writePieces, bind_assoc, bind_eq_some_iff] at h
    obtain ⟨b', hwrite, hafter⟩ := h
    have hb' := (writePiece_grows hb hp hwrite).1
    obtain ⟨-, -, tail, hf⟩ := writePieces_grows hrest hb' hafter
    cases p with
    | bit bit =>
      obtain rfl : bit = true := hp
      obtain ⟨r1, hone, hread⟩ := hread
      obtain ⟨rfl, hwatched, hk⟩ := aligned_bit hb hr hone hwrite
      refine ⟨rfl, ?_⟩
      rw [← hk]
      exact ih hrest hb' hafter hwatched hread
    | bytes w =>
      obtain ⟨r1, hone, hread⟩ := hread
      have hraw := raw_idle hb hp hr hwrite hf
      refine ⟨fun h => by rw [hraw h], ?_⟩
      cases hflush : w.flushes with
      | true =>
        obtain ⟨hpos, hwatched⟩ := aligned_bytes hb hp hr hone hwrite hf hraw hflush
        have hal := ih hrest hb' hafter hwatched hread
        rw [hpos] at hal
        exact hal
      | false =>
        obtain ⟨hbytes, -⟩ := nothing_of_no_flush hp.1 hflush 0
        rw [writePiece, write_fits hb hp.1 hraw, hflush] at hwrite
        split at hwrite
        · cases hwrite
          rw [read_bytes hp.1 (l := rest r) (by rw [hbytes, nil_append]), hbytes] at hone
          cases hone
          exact ih hrest hb hafter hr hread
        · cases hwrite

/-! ### Sequences of writes -/

/-- Bits are written only where the reader is at a byte for them, and raw bytes only where no
bits are pending. -/
def BitsAligned (ws : List Write) : Prop := Aligned 0 false (ws.flatMap Write.pieces)

/-- The buffer never has ten million bytes when more are appended. -/
def Room (ws : List Write) : Prop := Fits 0 (sizes 0 (ws.flatMap Write.pieces))

/-- The length of a string that is written. -/
def Write.length : Write → ℕ
  | .string s => s.chars.length
  | _ => 0

/-- The same reads match, and strings have the same lengths. -/
def SameShape (ws ws' : List Write) : Prop :=
  ws.map Write.read = ws'.map Write.read ∧ ws.map Write.length = ws'.map Write.length

/-- A write with all bits set, and with raw bytes that do not begin with a set bit. -/
def Write.worst : Write → Write
  | .bit _ => .bit true
  | .bits _ n => .bits (2 ^ (n : ℕ) - 1) n
  | .int type _ => .int type 0
  | .byteSeq byte => .byteSeq byte
  | .string s => .string ⟨List.replicate s.chars.length 97, fun h => by
      cases (List.mem_replicate.mp h).2⟩
  | .packGuid _ => .packGuid 0
  | .flush => .flush

theorem sameShape_worst (ws : List Write) : SameShape ws (ws.map Write.worst) := by
  constructor
  · rw [List.map_map]
    refine List.map_congr_left fun w _ => ?_
    cases w <;> rfl
  rw [List.map_map]
  refine List.map_congr_left fun w _ => ?_
  cases w <;> simp [Write.worst, Write.length]

theorem aligned_bits {qs : List Piece}
    (h : ∀ k stale, Aligned k stale ps ↔ Aligned k stale qs) (v v' n k : ℕ) (stale : Bool) :
    Aligned k stale ((bitsOf v n).map .bit ++ ps) ↔
      Aligned k stale ((bitsOf v' n).map .bit ++ qs) := by
  induction n generalizing k stale with
  | zero => exact h k stale
  | succ n ih => exact and_congr_right fun _ => ih ((k + 1) % 8) false

theorem aligned_worst (ws : List Write) (k : ℕ) (stale : Bool) :
    Aligned k stale (ws.flatMap Write.pieces) ↔
      Aligned k stale ((ws.map Write.worst).flatMap Write.pieces) := by
  induction ws generalizing k stale with
  | nil => exact Iff.rfl
  | cons w ws ih =>
    rw [map_cons, flatMap_cons, flatMap_cons]
    cases w with
    | bits v n => exact aligned_bits ih v _ n k stale
    | string s =>
      have hempty : (replicate s.chars.length (97 : Byte)).isEmpty = s.chars.isEmpty := by
        cases s.chars <;> rfl
      simp only [Write.worst, Write.pieces, singleton_append, Aligned, Write.isRaw,
        Write.flushes, hempty, if_true, ih]
    | byteSeq byte =>
      simp only [Write.worst, Write.pieces, singleton_append, Aligned, ih]
    | _ => simp only [Write.worst, Write.pieces, singleton_append, Aligned, Write.isRaw,
        Write.flushes, ih]

theorem bitsOf_ones (n m : ℕ) (hm : m ≤ n) (h : bit ∈ bitsOf (2 ^ n - 1) m) : bit = true := by
  induction m with
  | zero => cases h
  | succ m ih =>
    rcases mem_cons.mp h with rfl | hrest
    · rw [Nat.testBit_two_pow_sub_one]
      exact decide_eq_true hm
    · exact ih (Nat.le_of_succ_le hm) hrest

theorem worst_pieces (ws : List Write) :
    ∀ p ∈ (ws.map Write.worst).flatMap Write.pieces, Worst p := by
  intro p hp
  obtain ⟨w', hw', hmem⟩ := mem_flatMap.mp hp
  obtain ⟨w, -, rfl⟩ := mem_map.mp hw'
  cases w with
  | bit b =>
    obtain rfl := mem_singleton.mp hmem
    rfl
  | bits v n =>
    obtain ⟨bit, hbit, rfl⟩ := mem_map.mp hmem
    exact bitsOf_ones n n (Nat.le_refl _) hbit
  | string s =>
    obtain rfl := mem_singleton.mp hmem
    refine ⟨rfl, fun hraw => ?_⟩
    cases hs : s.chars with
    | nil => simp [Write.worst, Write.isRaw, hs] at hraw
    | cons c l => exact ⟨97, replicate l.length 97 ++ [0], by
        simp [Write.worst, Write.bytes, hs, replicate_succ], by decide⟩
  | packGuid guid =>
    obtain rfl := mem_singleton.mp hmem
    exact ⟨rfl, fun _ => ⟨0, [], rfl, by decide⟩⟩
  | _ =>
    obtain rfl := mem_singleton.mp hmem
    exact ⟨rfl, fun h => by cases h⟩

theorem bytes_pieces (ws : List Write) (h : .bytes w ∈ ws.flatMap Write.pieces) :
    w.isBits = false := by
  obtain ⟨w', -, hmem⟩ := mem_flatMap.mp h
  cases w' with
  | bits v n =>
    obtain ⟨bit, -, heq⟩ := mem_map.mp hmem
    cases heq
  | bit b => cases mem_singleton.mp hmem
  | _ =>
    cases mem_singleton.mp hmem
    rfl

theorem roundTrip_iff_pieces (ws : List Write) : RoundTrip ws ↔
    ∃ f r, (writePieces (ws.flatMap Write.pieces) .empty).bind flushBits = some f ∧
      ReadsBack (ws.flatMap Write.pieces) f r ∧ r.rpos = r.size := by
  simp only [RoundTrip, writeAll_pieces, readAll_iff]

/-- **The round trip of a byte buffer.**  What is written with its bits aligned is read back
exactly if there is room for it.  Of what is not aligned, some values of the same shape are
not read back. -/
theorem round_trip (ws : List Write) : (BitsAligned ws → (RoundTrip ws ↔ Room ws)) ∧
    (¬ BitsAligned ws → ∃ ws', SameShape ws ws' ∧ ¬ RoundTrip ws') := by
  constructor
  · intro hal
    have hback := readBack_of_aligned (fun w hw => bytes_pieces ws hw) writing_empty hal
    rw [roundTrip_iff_pieces]
    constructor
    · rintro ⟨f, r, hf, -⟩
      by_contra hroom
      rw [hback.fails hroom] at hf
      cases hf
    intro hroom
    obtain ⟨f, hf, hrpos, hpos, -, hread⟩ := hback.fits hroom
    obtain ⟨r, hr, hend⟩ := hread f ⟨rfl, fun _ => ⟨hrpos, fun _ => by omega⟩, fun h => absurd rfl h⟩
    exact ⟨f, r, hf, hr, hend⟩
  intro hnot
  refine ⟨_, sameShape_worst ws, fun htrip => hnot ?_⟩
  obtain ⟨f, r, hf, hr, -⟩ := (roundTrip_iff_pieces _).mp htrip
  obtain ⟨hrpos, hpos, -⟩ := writePieces_grows (worst_pieces ws) writing_empty hf
  have hwatched : Watched .empty f f.storage false :=
    ⟨⟨rfl, fun _ => ⟨hrpos, fun _ => by omega⟩, fun h => absurd rfl h⟩,
      nofun, fun h => absurd rfl h⟩
  exact (aligned_worst ws 0 false).mpr
    (aligned_of_readsBack (worst_pieces ws) writing_empty hf hwatched hr)

/-- A bit after a byte: the writer starts a new byte for it, and the reader goes on in the byte
of the bit before.  A string after a bit: its characters are put before the byte of the bit,
and the reader takes the first of them for that byte. -/
theorem bit_after_byte : ¬ RoundTrip [.bit true, .int .uint8 5, .bit true] ∧
    ¬ RoundTrip [.bit true, .string ⟨[97], by decide⟩] := by
  constructor
  · rintro ⟨b, r, hb, hr, -⟩
    obtain rfl : (⟨0, 3, 8, 0, [128, 5, 128]⟩ : ByteBuffer) = b := some.inj hb
    have hread : readAll [.bit, .int .uint8, .bit] ⟨0, 3, 8, 0, [128, 5, 128]⟩ =
        some ([.bit true, .int .uint8 5, .bit false], ⟨2, 3, 1, 128, [128, 5, 128]⟩) := rfl
    cases hread.symm.trans hr
  rintro ⟨b, r, hb, hr, -⟩
  obtain rfl : (⟨0, 3, 8, 0, [97, 128, 0]⟩ : ByteBuffer) = b := some.inj hb
  have hread : readAll [.bit, .string] ⟨0, 3, 8, 0, [97, 128, 0]⟩ =
      some ([.bit false, .string [128]], ⟨3, 3, 0, 97, [97, 128, 0]⟩) := rfl
  cases hread.symm.trans hr

end ZerosCore.Packets
