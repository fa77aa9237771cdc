/-
# What is read of a movement packet

A sequence is well formed if its bits come first, every `HasX` before its `X`, and each bit and
byte of the two guids once.  What the reader knows after some elements is then what the writer
had for these (`readElement_after`): the two loops test the same conditions, the writer on the
info and the reader on the bits that it has seen.

Two things get lost.  The bit for the transport is made of the lower half of its guid, so that
a transport whose guid has nothing there is written and not read.  And bits that no byte comes
after are not written to the end.  With an orientation that is normalized, everything else is
read as it was written (`codec_right_iff`).
-/

import ZerosCore.Movement.MovementInfo
import ZerosCore.Packets.Sending

namespace ZerosCore.Movement

open Packets List Option ObjectGuid Element Write MovementInfo

variable {F : FloatOps} {info : MovementInfo} {es seen : List Element} {e : Element}
variable {b b' : ByteBuffer}

/-! ### Sequences -/

namespace Element

/-- The bits an element has in a packet, where it is present. -/
def width : Element → ℕ
  | .hasGuidByte _ | .hasMovementFlags | .hasMovementFlags2 | .hasTimestamp | .hasOrientation
  | .hasTransportData | .hasTransportGuidByte _ | .hasTransportTime2 | .hasTransportTime3
  | .hasPitch | .hasFallData | .hasFallDirection | .hasSplineElevation | .hasSpline
  | .zeroBit | .oneBit => 1
  | .movementFlags => 30
  | .movementFlags2 => 12
  | _ => 0

/-- A bit element; the others are bytes. -/
def isBit (e : Element) : Bool := e.width != 0

/-- The `HasX` elements of an `X`. -/
def needs : Element → List Element
  | .guidByte i => [.hasGuidByte i]
  | .movementFlags => [.hasMovementFlags]
  | .movementFlags2 => [.hasMovementFlags2]
  | .timestamp => [.hasTimestamp]
  | .orientation => [.hasOrientation]
  | .hasTransportGuidByte _ | .hasTransportTime2 | .hasTransportTime3 | .transportPositionX
  | .transportPositionY | .transportPositionZ | .transportOrientation | .transportSeat
  | .transportTime => [.hasTransportData]
  | .transportGuidByte i => [.hasTransportData, .hasTransportGuidByte i]
  | .transportTime2 => [.hasTransportData, .hasTransportTime2]
  | .transportTime3 => [.hasTransportData, .hasTransportTime3]
  | .pitch => [.hasPitch]
  | .hasFallDirection | .fallTime | .fallVerticalSpeed => [.hasFallData]
  | .fallCosAngle | .fallSinAngle | .fallHorizontalSpeed => [.hasFallData, .hasFallDirection]
  | .splineElevation => [.hasSplineElevation]
  | _ => []

/-- The element's part of the info is the same. -/
def Recovered (info info' : MovementInfo) : Element → Prop
  | .guidByte _ => info'.guid = info.guid
  | .transportGuidByte _ => info'.tGuid = info.tGuid
  | .speed _ => info'.ackSpeed = info.ackSpeed
  | .hasSpline => info'.hasSpline = info.hasSpline
  | .movementFlags => info'.flags = info.flags
  | .movementFlags2 => info'.flags2 = info.flags2
  | .timestamp => info'.time = info.time
  | .positionX => info'.pos.positionX = info.pos.positionX
  | .positionY => info'.pos.positionY = info.pos.positionY
  | .positionZ => info'.pos.positionZ = info.pos.positionZ
  | .orientation => info'.pos.orientation = info.pos.orientation
  | .transportPositionX => info'.tPos.positionX = info.tPos.positionX
  | .transportPositionY => info'.tPos.positionY = info.tPos.positionY
  | .transportPositionZ => info'.tPos.positionZ = info.tPos.positionZ
  | .transportOrientation => info'.tPos.orientation = info.tPos.orientation
  | .transportSeat => info'.tSeat = info.tSeat
  | .transportTime => info'.tTime = info.tTime
  | .transportTime2 => info'.tTime2 = info.tTime2
  | .transportTime3 => info'.tTime3 = info.tTime3
  | .pitch => info'.pitch = info.pitch
  | .fallTime => info'.fallTime = info.fallTime
  | .fallVerticalSpeed => info'.jZspeed = info.jZspeed
  | .fallCosAngle => info'.jCosAngle = info.jCosAngle
  | .fallSinAngle => info'.jSinAngle = info.jSinAngle
  | .fallHorizontalSpeed => info'.jXyspeed = info.jXyspeed
  | .splineElevation => info'.splineElevation = info.splineElevation
  | .counter => info'.ackCount = info.ackCount
  | .height => info'.height = info.height
  | _ => True

end Element

/-- Every `HasX` comes before its `X`, the bits before the bytes, and the parts of the guids
come once. -/
structure WellFormed (es : List Element) : Prop where
  preceded : ∀ n (hn : n < es.length), ∀ h ∈ es[n].needs, h ∈ es.take n
  bitsFirst : es.Pairwise fun e e' => e'.isBit = true → e.isBit = true
  once : ∀ i, es.count (.hasGuidByte i) = 1 ∧ es.count (.guidByte i) = 1 ∧
    es.count (.hasTransportGuidByte i) = 1 ∧ es.count (.transportGuidByte i) = 1

/-- What is absent has the value it starts with, and the flags fit into their bits. -/
structure Defaulted (F : FloatOps) (info : MovementInfo) : Prop where
  flags : info.flags.toNat < 2 ^ 30
  flags2 : info.flags2.toNat < 2 ^ 12
  orientation : info.hasOrientation F = false → info.pos.orientation = 0
  pitch : info.hasPitch F = false → info.pitch = 0
  splineElevation : info.hasSplineElevation F = false → info.splineElevation = 0
  fall : info.hasFallData = false → info.fallTime = 0 ∧ info.jZspeed = 0
  direction : info.hasFallDirection = false →
    info.jCosAngle = 0 ∧ info.jSinAngle = 0 ∧ info.jXyspeed = 0
  transport : info.onTransport = false →
    info.tPos = {} ∧ info.tSeat = -1 ∧ info.tTime = 0 ∧ info.tTime2 = 0 ∧ info.tTime3 = 0

/-! ### What an element writes -/

variable (F info) in
/-- An element with something to be written. -/
def present : Element → Bool
  | .guidByte i => ObjectGuid.ofGuid info.guid i != 0
  | .transportGuidByte i => info.onTransport && ObjectGuid.ofGuid info.tGuid i != 0
  | .hasTransportGuidByte _ | .hasTransportTime2 | .hasTransportTime3 | .transportPositionX
  | .transportPositionY | .transportPositionZ | .transportOrientation | .transportSeat
  | .transportTime => info.onTransport
  | .transportTime2 => info.onTransport && info.tTime2 != 0
  | .transportTime3 => info.onTransport && info.tTime3 != 0
  | .movementFlags => info.flags != 0
  | .movementFlags2 => info.flags2 != 0
  | .timestamp => info.time != 0
  | .orientation => info.hasOrientation F
  | .pitch => info.hasPitch F
  | .hasFallDirection | .fallTime | .fallVerticalSpeed => info.hasFallData
  | .fallCosAngle | .fallSinAngle | .fallHorizontalSpeed =>
    info.hasFallData && info.hasFallDirection
  | .splineElevation => info.hasSplineElevation F
  | _ => true

variable (F info) in
def typed : Element → Write
  | .hasGuidByte i => .bit (ObjectGuid.ofGuid info.guid i != 0)
  | .hasTransportGuidByte i => .bit (ObjectGuid.ofGuid info.tGuid i != 0)
  | .guidByte i => .byteSeq (ObjectGuid.ofGuid info.guid i)
  | .transportGuidByte i => .byteSeq (ObjectGuid.ofGuid info.tGuid i)
  | .speed _ => .int .uint32 info.ackSpeed
  | .hasMovementFlags => .bit (info.flags == 0)
  | .hasMovementFlags2 => .bit (info.flags2 == 0)
  | .hasTimestamp => .bit (info.time == 0)
  | .hasOrientation => .bit !(info.hasOrientation F)
  | .hasTransportData => .bit info.transportBit
  | .hasTransportTime2 => .bit (info.tTime2 != 0)
  | .hasTransportTime3 => .bit (info.tTime3 != 0)
  | .hasPitch => .bit !(info.hasPitch F)
  | .hasFallData => .bit info.hasFallData
  | .hasFallDirection => .bit info.hasFallDirection
  | .hasSplineElevation => .bit !(info.hasSplineElevation F)
  | .hasSpline => .bit info.hasSpline
  | .movementFlags => .bits info.flags.toNat 30
  | .movementFlags2 => .bits info.flags2.toNat 12
  | .timestamp => .int .uint32 info.time
  | .positionX => .int .uint32 info.pos.positionX
  | .positionY => .int .uint32 info.pos.positionY
  | .positionZ => .int .uint32 info.pos.positionZ
  | .orientation => .int .uint32 info.pos.orientation
  | .transportPositionX => .int .uint32 info.tPos.positionX
  | .transportPositionY => .int .uint32 info.tPos.positionY
  | .transportPositionZ => .int .uint32 info.tPos.positionZ
  | .transportOrientation => .int .uint32 info.tPos.orientation
  | .transportSeat => .int .int8 info.tSeat
  | .transportTime => .int .uint32 info.tTime
  | .transportTime2 => .int .uint32 info.tTime2
  | .transportTime3 => .int .uint32 info.tTime3
  | .pitch => .int .uint32 info.pitch
  | .fallTime => .int .uint32 info.fallTime
  | .fallVerticalSpeed => .int .uint32 info.jZspeed
  | .fallCosAngle => .int .uint32 info.jCosAngle
  | .fallSinAngle => .int .uint32 info.jSinAngle
  | .fallHorizontalSpeed => .int .uint32 info.jXyspeed
  | .splineElevation => .int .uint32 info.splineElevation
  | .counter => .int .uint32 info.ackCount
  | .height => .int .uint32 info.height
  | .zeroBit => .bit false
  | .oneBit => .bit true

variable (F info) in
def written (es : List Element) : List Write := (es.filter (present F info)).map (typed F info)

variable (F info) in
def pieces (es : List Element) : List Piece := (written F info es).flatMap Write.pieces

theorem writeByteSeq_eq (byte : Byte) (b : ByteBuffer) : b.writeByteSeq byte =
    if byte != 0 then b.write (.byteSeq byte) else some b := by
  by_cases hzero : byte = 0
  · rw [hzero]
    rfl
  rw [if_pos (bne_iff_ne.mpr hzero)]
  rfl

theorem writeElement_eq (e : Element) (b : ByteBuffer) : writeElement F info e b =
    if present F info e then b.write (typed F info e) else some b := by
  cases e with
  | guidByte i => exact writeByteSeq_eq _ b
  | transportGuidByte i =>
    rw [writeElement, writeByteSeq_eq, present]
    cases info.onTransport <;> rfl
  | _ => rfl

theorem writeElements_eq (es : List Element) (b : ByteBuffer) :
    writeElements F info es b = writePieces (pieces F info es) b := by
  rw [pieces, ← writeAll_pieces]
  induction es generalizing b with
  | nil => rfl
  | cons e es ih =>
    rw [writeElements, writeElement_eq, written, filter_cons]
    by_cases hpresent : present F info e = true
    · rw [if_pos hpresent, if_pos hpresent, map_cons, ByteBuffer.writeAll]
      congr 1
      funext b'
      exact ih b'
    rw [if_neg hpresent, if_neg hpresent]
    exact ih b

theorem pieces_cons (e : Element) (es : List Element) : pieces F info (e :: es) =
    (if present F info e then (typed F info e).pieces else []) ++ pieces F info es := by
  rw [pieces, written, filter_cons]
  split
  · rw [map_cons, flatMap_cons]
    rfl
  · rfl

theorem pieces_append (es es' : List Element) :
    pieces F info (es ++ es') = pieces F info es ++ pieces F info es' := by
  rw [pieces, written, filter_append, map_append, flatMap_append]
  rfl

variable {p : Piece}

theorem mem_pieces : p ∈ pieces F info es ↔
    ∃ e ∈ es, present F info e = true ∧ p ∈ (typed F info e).pieces := by
  simp only [pieces, written, List.mem_flatMap, List.mem_map, List.mem_filter]
  constructor
  · rintro ⟨w, ⟨e, ⟨hmem, hpresent⟩, rfl⟩, hp⟩
    exact ⟨e, hmem, hpresent, hp⟩
  rintro ⟨e, hmem, hpresent, hp⟩
  exact ⟨_, ⟨e, ⟨hmem, hpresent⟩, rfl⟩, hp⟩

/-! ### The shape of a packet -/

variable (F info) in
def bitCount (es : List Element) : ℕ :=
  (es.map fun e => if present F info e then e.width else 0).sum

variable (F info) in
/-- The packet ends with a whole byte: its bits fill bytes, or there are bytes after them. -/
def Whole (es : List Element) : Prop :=
  bitCount F info es % 8 = 0 ∨ ∃ e ∈ es, e.isBit = false ∧ present F info e = true

theorem length_bitsOf (value n : ℕ) : (bitsOf value n).length = n := by
  induction n with
  | zero => rfl
  | succ n ih => rw [bitsOf, length_cons, ih]

variable (F info) in
theorem typed_bit (h : e.isBit = true) :
    ∃ bits : List Bool, (typed F info e).pieces = bits.map .bit ∧ bits.length = e.width := by
  cases e with
  | movementFlags => exact ⟨bitsOf info.flags.toNat 30, rfl, length_bitsOf _ _⟩
  | movementFlags2 => exact ⟨bitsOf info.flags2.toNat 12, rfl, length_bitsOf _ _⟩
  | _ => first
    | exact ⟨[_], rfl, rfl⟩
    | cases h

/-- A byte element is one write of bytes. -/
structure ByteWrite (w : Write) : Prop where
  pieces_eq : w.pieces = [.bytes w]
  isBits : w.isBits = false
  isRaw : w.isRaw = false
  appends : ∀ k, (w.appends k).sum ≤ 9

theorem byteWrite_int (type : IntType) (v : BitVec (8 * type.size)) :
    ByteWrite (.int type v) := by
  refine ⟨rfl, rfl, rfl, fun k => ?_⟩
  have hgap := sum_gap_le k
  have hsize : type.size ≤ 8 := by
    cases type <;> decide
  rw [appends, sum_append, sum_singleton]
  omega

theorem byteWrite_byteSeq (byte : Byte) : ByteWrite (.byteSeq byte) := by
  refine ⟨rfl, rfl, rfl, fun k => ?_⟩
  have hgap := sum_gap_le k
  rw [appends]
  split
  · rw [sum_append, sum_singleton]
    omega
  · exact Nat.zero_le 9

variable (F info) in
theorem typed_byte (h : e.isBit = false) : ByteWrite (typed F info e) := by
  cases e with
  | guidByte i | transportGuidByte i => exact byteWrite_byteSeq _
  | _ => first
    | exact byteWrite_int _ _
    | cases h

theorem flushes_typed (h : e.isBit = false) (hpresent : present F info e = true) :
    (typed F info e).flushes = true := by
  cases e with
  | guidByte i => exact hpresent
  | transportGuidByte i => exact (Bool.and_eq_true_iff.mp hpresent).2
  | _ => first
    | rfl
    | cases h

variable (F info) in
theorem pieces_bits (h : ∀ e ∈ es, e.isBit = true) : ∃ bits : List Bool,
    pieces F info es = bits.map .bit ∧ bits.length = bitCount F info es := by
  induction es with
  | nil => exact ⟨[], rfl, rfl⟩
  | cons e es ih =>
    obtain ⟨bits, hbits, hlength⟩ := ih fun e he => h e (mem_cons_of_mem _ he)
    obtain ⟨own, hown, hwidth⟩ := typed_bit F info (h e mem_cons_self)
    rw [pieces_cons, hbits, bitCount, map_cons, sum_cons, ← bitCount]
    split
    · refine ⟨own ++ bits, ?_, ?_⟩
      · rw [hown, map_append]
      · rw [length_append, hwidth, hlength]
    refine ⟨bits, nil_append _, ?_⟩
    rw [hlength, Nat.zero_add]

theorem bytes_of_mem (h : ∀ e ∈ es, e.isBit = false) (hp : p ∈ pieces F info es) :
    ∃ e ∈ es, present F info e = true ∧ p = .bytes (typed F info e) := by
  obtain ⟨e, he, hpresent, hmem⟩ := mem_pieces.mp hp
  rw [(typed_byte F info (h e he)).pieces_eq, mem_singleton] at hmem
  exact ⟨e, he, hpresent, hmem⟩

theorem allBytes_pieces (h : ∀ e ∈ es, e.isBit = false) : AllBytes (pieces F info es) := by
  intro p hp
  obtain ⟨e, -, -, rfl⟩ := bytes_of_mem h hp
  exact ⟨_, rfl⟩

/-- The bytes of a packet are those of its byte elements. -/
theorem byteWrite_of_mem {w : Write} (hw : .bytes w ∈ pieces F info es) : ByteWrite w := by
  obtain ⟨e, -, -, hmem⟩ := mem_pieces.mp hw
  cases hbit : e.isBit with
  | true =>
    obtain ⟨bits, hbits, -⟩ := typed_bit F info hbit
    rw [hbits] at hmem
    obtain ⟨bit, -, heq⟩ := mem_map.mp hmem
    cases heq
  | false =>
    have hown := typed_byte F info hbit
    rw [hown.pieces_eq, mem_singleton] at hmem
    cases hmem
    exact hown

theorem plain_pieces : Plain (pieces F info es) := fun _ hw =>
  ⟨(byteWrite_of_mem hw).isBits, (byteWrite_of_mem hw).isRaw⟩

theorem flushes_iff (h : ∀ e ∈ es, e.isBit = false) :
    (∃ w, .bytes w ∈ pieces F info es ∧ w.flushes = true) ↔ ∃ e ∈ es, present F info e = true := by
  constructor
  · rintro ⟨w, hw, -⟩
    obtain ⟨e, he, hpresent, -⟩ := bytes_of_mem h hw
    exact ⟨e, he, hpresent⟩
  rintro ⟨e, he, hpresent⟩
  refine ⟨typed F info e, mem_pieces.mpr ⟨e, he, hpresent, ?_⟩, flushes_typed (h e he) hpresent⟩
  rw [(typed_byte F info (h e he)).pieces_eq]
  exact mem_singleton_self _

variable (F info) in
theorem bitCount_bytes (h : ∀ e ∈ es, e.isBit = false) : bitCount F info es = 0 := by
  induction es with
  | nil => rfl
  | cons e es ih =>
    have hwidth : e.width = 0 := by
      have hbit := h e mem_cons_self
      simpa [isBit] using hbit
    rw [bitCount, map_cons, sum_cons, hwidth, ite_self, Nat.zero_add]
    exact ih fun e he => h e (mem_cons_of_mem _ he)

theorem WellFormed.split (h : WellFormed es) : ∃ bs ys, es = bs ++ ys ∧
    (∀ e ∈ bs, e.isBit = true) ∧ ∀ e ∈ ys, e.isBit = false := by
  refine ⟨es.takeWhile isBit, es.dropWhile isBit,
    takeWhile_append_dropWhile.symm, fun e he => ?_, ?_⟩
  · exact all_eq_true.mp all_takeWhile e he
  have hpair := h.bitsFirst.sublist (dropWhile_sublist isBit)
  cases hrest : es.dropWhile isBit with
  | nil => exact nofun
  | cons first rest =>
    have hfirst : first.isBit = false := by
      have hhead := head?_dropWhile_not isBit es
      rw [hrest] at hhead
      exact hhead
    rw [hrest, pairwise_cons] at hpair
    intro e he
    rcases mem_cons.mp he with rfl | hmem
    · exact hfirst
    cases hbit : e.isBit with
    | false => rfl
    | true => cases hfirst.symm.trans (hpair.1 e hmem hbit)

variable (F info) in
/-- **The shape** of the packet of a well formed sequence. -/
theorem WellFormed.shape (h : WellFormed es) : Aligned 0 false (pieces F info es) ∧
    (pendingAfter 0 (pieces F info es) = 0 ↔ Whole F info es) := by
  obtain ⟨bs, ys, rfl, hbs, hys⟩ := h.split
  obtain ⟨bits, hbits, hlength⟩ := pieces_bits F info hbs
  have hbytes : AllBytes (pieces F info ys) := allBytes_pieces hys
  rw [pieces_append, hbits]
  constructor
  · exact aligned_bits_first bits hbytes plain_pieces 0
  rw [pendingAfter_bits bits _ (by omega), pendingAfter_bytes hbytes, flushes_iff hys,
    Nat.zero_add, hlength, Whole]
  have hcount : bitCount F info (bs ++ ys) = bitCount F info bs := by
    have hzero := bitCount_bytes F info hys
    rw [bitCount] at hzero ⊢
    rw [map_append, sum_append, hzero]
    rfl
  rw [hcount]
  refine or_congr Iff.rfl ⟨?_, ?_⟩
  · rintro ⟨e, he, hpresent⟩
    exact ⟨e, mem_append_right bs he, hys e he, hpresent⟩
  rintro ⟨e, he, hbit, hpresent⟩
  rcases mem_append.mp he with hin | hin
  · cases hbit.symm.trans (hbs e hin)
  · exact ⟨e, hin, hpresent⟩

variable (F info) in
theorem length_typed (e : Element) : (typed F info e).pieces.length ≤ 30 := by
  cases hbit : e.isBit with
  | true =>
    obtain ⟨bits, hbits, hlength⟩ := typed_bit F info hbit
    rw [hbits, length_map, hlength]
    cases e <;> exact Nat.le_of_ble_eq_true rfl
  | false =>
    rw [(typed_byte F info hbit).pieces_eq]
    exact Nat.le_of_ble_eq_true rfl

variable (F info) in
theorem length_pieces (es : List Element) : (pieces F info es).length ≤ 30 * es.length := by
  induction es with
  | nil => exact Nat.le_refl 0
  | cons e es ih =>
    have hone := length_typed F info e
    rw [pieces_cons, length_append, length_cons]
    split
    · omega
    rw [length_nil]
    omega

theorem fits_pieces (hlength : es.length ≤ mseCount) : Fits 0 (sizes 0 (pieces F info es)) := by
  have hsum : (sizes 0 (pieces F info es)).sum ≤ 9 * (pieces F info es).length + 1 :=
    sum_sizes_le 9 (fun _ hw => (byteWrite_of_mem hw).appends) (by omega)
  have hpieces := length_pieces F info es
  refine fits_of_sum_lt ?_
  rw [mseCount] at hlength
  rw [ByteBuffer.maxSize]
  omega

/-! ### What the reader knows -/

variable (F info) in
def readOrientation : FloatBits :=
  if info.hasOrientation F then F.normalizeOrientation info.pos.orientation else 0

variable (F info) in
/-- The orientation on the transport that is read for the info's. -/
def readTransportOrientation : FloatBits :=
  if info.onTransport then F.normalizeOrientation info.tPos.orientation else 0

def knownByte (id : ObjectGuid) (i : Fin 8) (hasBit hasByte : Prop) [Decidable hasBit]
    [Decidable hasByte] : Byte :=
  if hasByte then id i else if hasBit then bitByte (id i != 0) else 0

variable (F info) in
/-- The variables of the reader after these elements. -/
def after (seen : List Element) : Reading where
  hasMovementFlags := decide (.hasMovementFlags ∈ seen) && info.flags != 0
  hasMovementFlags2 := decide (.hasMovementFlags2 ∈ seen) && info.flags2 != 0
  hasTimestamp := decide (.hasTimestamp ∈ seen) && info.time != 0
  hasOrientation := decide (.hasOrientation ∈ seen) && info.hasOrientation F
  hasTransportData := decide (.hasTransportData ∈ seen) && info.transportBit
  hasTransportTime2 := decide (.hasTransportTime2 ∈ seen) && info.tTime2 != 0
  hasTransportTime3 := decide (.hasTransportTime3 ∈ seen) && info.tTime3 != 0
  hasPitch := decide (.hasPitch ∈ seen) && info.hasPitch F
  hasFallData := decide (.hasFallData ∈ seen) && info.hasFallData
  hasFallDirection := decide (.hasFallDirection ∈ seen) && info.hasFallDirection
  hasSplineElevation := decide (.hasSplineElevation ∈ seen) && info.hasSplineElevation F
  id i := knownByte (ObjectGuid.ofGuid info.guid) i (.hasGuidByte i ∈ seen) (.guidByte i ∈ seen)
  tid i := knownByte (ObjectGuid.ofGuid info.tGuid) i (.hasTransportGuidByte i ∈ seen)
    (.transportGuidByte i ∈ seen)
  info :=
    { flags := if .movementFlags ∈ seen then info.flags else 0
      flags2 := if .movementFlags2 ∈ seen then info.flags2 else 0
      pos :=
        { positionX := if .positionX ∈ seen then info.pos.positionX else 0
          positionY := if .positionY ∈ seen then info.pos.positionY else 0
          positionZ := if .positionZ ∈ seen then info.pos.positionZ else 0
          orientation := if .orientation ∈ seen then readOrientation F info else 0 }
      time := if .timestamp ∈ seen then info.time else 0
      tPos :=
        { positionX := if .transportPositionX ∈ seen then info.tPos.positionX else 0
          positionY := if .transportPositionY ∈ seen then info.tPos.positionY else 0
          positionZ := if .transportPositionZ ∈ seen then info.tPos.positionZ else 0
          orientation :=
            if .transportOrientation ∈ seen then readTransportOrientation F info else 0 }
      tSeat := if .transportSeat ∈ seen then info.tSeat else -1
      tTime := if .transportTime ∈ seen then info.tTime else 0
      tTime2 := if .transportTime2 ∈ seen then info.tTime2 else 0
      tTime3 := if .transportTime3 ∈ seen then info.tTime3 else 0
      pitch := if .pitch ∈ seen then info.pitch else 0
      fallTime := if .fallTime ∈ seen then info.fallTime else 0
      jZspeed := if .fallVerticalSpeed ∈ seen then info.jZspeed else 0
      jCosAngle := if .fallCosAngle ∈ seen then info.jCosAngle else 0
      jSinAngle := if .fallSinAngle ∈ seen then info.jSinAngle else 0
      jXyspeed := if .fallHorizontalSpeed ∈ seen then info.jXyspeed else 0
      hasSpline := decide (.hasSpline ∈ seen) && info.hasSpline
      splineElevation := if .splineElevation ∈ seen then info.splineElevation else 0
      ackCount := if .counter ∈ seen then info.ackCount else 0
      ackSpeed := if ∃ kind, .speed kind ∈ seen then info.ackSpeed else 0
      height := if .height ∈ seen then info.height else 0 }

theorem after_nil : after F info [] = {} := by
  simp [after, knownByte]

/-- The elements that an element may not come after: a part of a guid comes once. -/
def Element.bars : Element → List Element
  | .hasGuidByte i | .guidByte i => [.guidByte i]
  | .hasTransportGuidByte i | .transportGuidByte i => [.transportGuidByte i]
  | _ => []

section Reads

variable {f : Bool → Reading}

theorem takeBit_of_read {bit : Bool}
    (h : b.read (Write.bit bit).read = some ((Write.bit bit).value, b')) :
    takeBit f b = some (f bit, b') := by
  obtain ⟨r, hr, heq⟩ := map_eq_some_iff.mp h
  cases heq
  rw [takeBit, hr]
  rfl

theorem takeBits_of_read {v : ℕ} {n : Fin 33} {f : ℕ → Reading} (hv : v < 2 ^ (n : ℕ))
    (h : b.read (bits v n).read = some ((bits v n).value, b')) :
    takeBits n f b = some (f v, b') := by
  obtain ⟨r, hr, heq⟩ := map_eq_some_iff.mp h
  simp only [Write.value, Nat.mod_eq_of_lt hv, Prod.mk.injEq, Value.bits.injEq] at heq
  obtain ⟨rfl, rfl⟩ := heq
  rw [takeBits, hr]
  rfl

theorem take_of_read (type : IntType) {v : BitVec (8 * type.size)}
    {f : BitVec (8 * type.size) → Reading}
    (h : b.read (int type v).read = some ((int type v).value, b')) :
    take type.size f b = some (f v, b') := by
  obtain ⟨r, hr, heq⟩ := map_eq_some_iff.mp h
  cases heq
  rw [take, hr]
  rfl

theorem takeByteSeq_of_read {byte : Byte} {f : Byte → Reading}
    (h : if byte != 0 then
      b.read (byteSeq byte).read = some ((byteSeq byte).value, b') else b = b') :
    takeByteSeq (bitByte (byte != 0)) f b = some (f byte, b') := by
  by_cases hzero : byte = 0
  · subst hzero
    cases (show b = b' from h)
    rfl
  have hne : (byte != 0) = true := bne_iff_ne.mpr hzero
  rw [hne, if_pos rfl] at h
  obtain ⟨r, hr, heq⟩ := map_eq_some_iff.mp h
  cases heq
  rw [if_neg hzero] at hr
  rw [hne, takeByteSeq]
  change (b.readByteSeq 1).map _ = _
  rw [hr]
  rfl

end Reads

theorem read_of_pieces (h : ReadsBack (pieces F info [e]) b b') :
    if present F info e then b.read (typed F info e).read = some ((typed F info e).value, b')
    else b = b' := by
  rw [pieces_cons] at h
  change ReadsBack (_ ++ []) b b' at h
  rw [append_nil] at h
  split
  · rename_i hpresent
    rw [if_pos hpresent] at h
    exact (read_iff _ b b').mpr h
  rename_i hpresent
  rw [if_neg hpresent] at h
  exact h

variable {s : Reading} {c : Bool} {read : ByteBuffer → Option (Reading × ByteBuffer)}
variable {s' : Reading}

theorem takeIf_of_pieces (hc : c = present F info e)
    (h : ReadsBack (pieces F info [e]) b b') (hyes : present F info e = true →
      b.read (typed F info e).read = some ((typed F info e).value, b') → read b = some (s', b'))
    (hno : present F info e = false → s = s') : s.takeIf c read b = some (s', b') := by
  have hread := read_of_pieces h
  rw [Reading.takeIf, hc]
  cases hpresent : present F info e with
  | true =>
    rw [hpresent, if_pos rfl] at hread
    exact hyes hpresent hread
  | false =>
    rw [hpresent, if_neg Bool.false_ne_true] at hread
    rw [if_neg Bool.false_ne_true, hno hpresent, hread]

/-- A byte of a guid becomes known to be zero or not, the others stay as they are. -/
theorem setByte_hasByte {id : ObjectGuid} {i : Fin 8} {has has' byte byte' : Fin 8 → Prop}
    [DecidablePred has] [DecidablePred has'] [DecidablePred byte] [DecidablePred byte']
    (hself : has' i ∧ ¬byte' i) (hother : ∀ j, j ≠ i → (has' j ↔ has j) ∧ (byte' j ↔ byte j)) :
    setByte (fun j => knownByte id j (has j) (byte j)) i (bitByte (id i != 0)) =
      fun j => knownByte id j (has' j) (byte' j) := by
  funext j
  unfold knownByte setByte
  by_cases hj : j = i
  · subst hj
    rw [Function.update_self, if_neg hself.2, if_pos hself.1]
  · simp only [Function.update_of_ne hj, hother j hj]

/-- A byte of a guid becomes known. -/
theorem setByte_byte {id : ObjectGuid} {i : Fin 8} {has has' byte byte' : Fin 8 → Prop}
    [DecidablePred has] [DecidablePred has'] [DecidablePred byte] [DecidablePred byte']
    (hself : byte' i) (hother : ∀ j, j ≠ i → (has' j ↔ has j) ∧ (byte' j ↔ byte j)) :
    setByte (fun j => knownByte id j (has j) (byte j)) i (id i) =
      fun j => knownByte id j (has' j) (byte' j) := by
  funext j
  unfold knownByte setByte
  by_cases hj : j = i
  · subst hj
    rw [Function.update_self, if_pos hself]
  · simp only [Function.update_of_ne hj, hother j hj]

theorem ofGuid_of_not_onTransport (h : info.onTransport = false) (i : Fin 8) :
    ofGuid info.tGuid i = 0 := by
  have hzero : info.tGuid = 0 := by
    simpa [onTransport] using h
  rw [hzero]
  exact BitVec.extractLsb'_zero

theorem direction_of_not (h : (info.hasFallData && info.hasFallDirection) = false) :
    info.hasFallDirection = false := by
  cases hdirection : info.hasFallDirection with
  | false => rfl
  | true =>
    have hdata := (Bool.and_eq_true_iff.mp hdirection).1
    rw [hdata, hdirection] at h
    cases h

/-- Whether a byte of the guid is zero is read before the byte. -/
theorem readElement_hasGuidByte (i : Fin 8) (hnot : .guidByte i ∉ seen)
    (h : ReadsBack (pieces F info [.hasGuidByte i]) b b') :
    readElement F (after F info seen) (.hasGuidByte i) b =
      some (after F info (.hasGuidByte i :: seen), b') := by
  have hid : setByte (after F info seen).id i (bitByte (ofGuid info.guid i != 0)) =
      (after F info (.hasGuidByte i :: seen)).id :=
    setByte_hasByte (by simp [hnot]) fun j hj => by simp [hj]
  rw [readElement, takeBit_of_read (read_of_pieces h), hid]
  simp [after]

/-- A byte of the guid is read if it is not zero. -/
theorem readElement_guidByte (i : Fin 8) (hhas : .hasGuidByte i ∈ seen) (hnot : .guidByte i ∉ seen)
    (h : ReadsBack (pieces F info [.guidByte i]) b b') :
    readElement F (after F info seen) (.guidByte i) b =
      some (after F info (.guidByte i :: seen), b') := by
  have hknown : (after F info seen).id i = bitByte (ofGuid info.guid i != 0) := by
    simp [after, knownByte, hnot, hhas]
  have hid : setByte (after F info seen).id i (ofGuid info.guid i) =
      (after F info (.guidByte i :: seen)).id :=
    setByte_byte (by simp) fun j hj => by simp [hj]
  rw [readElement, hknown, takeByteSeq_of_read (read_of_pieces h), hid]
  simp [after]

section

variable (hd : Defaulted F info)

include hd

theorem Defaulted.time2_of_not
    (h : (info.onTransport && info.tTime2 != 0) = false) : info.tTime2 = 0 := by
  cases hon : info.onTransport with
  | false => exact (hd.transport hon).2.2.2.1
  | true => simpa [hon] using h

theorem Defaulted.time3_of_not
    (h : (info.onTransport && info.tTime3 != 0) = false) : info.tTime3 = 0 := by
  cases hon : info.onTransport with
  | false => exact (hd.transport hon).2.2.2.2
  | true => simpa [hon] using h

theorem after_absent (hp : present F info e = false) :
    after F info (e :: seen) = after F info seen := by
  cases e with
  | guidByte i =>
    have hzero : ofGuid info.guid i = 0 := by
      simpa [present] using hp
    simp [after]
    funext j
    by_cases hj : j = i
    · simp [knownByte, hj, hzero, bitByte]
    · simp [knownByte, hj]
  | hasTransportGuidByte i | transportGuidByte i =>
    have hzero : ofGuid info.tGuid i = 0 := by
      cases hon : info.onTransport with
      | true => simp_all [present]
      | false => exact ofGuid_of_not_onTransport hon i
    simp [after]
    funext j
    by_cases hj : j = i
    · simp [knownByte, hj, hzero, bitByte]
    · simp [knownByte, hj]
  | hasFallDirection =>
    simp [after, MovementInfo.hasFallDirection, show info.hasFallData = false from hp]
  | movementFlags | movementFlags2 | timestamp =>
    simp only [present, bne_eq_false_iff_eq] at hp
    simp [after, hp]
  | orientation => simp [after, readOrientation, show info.hasOrientation F = false from hp]
  | transportOrientation =>
    simp [after, readTransportOrientation, show info.onTransport = false from hp]
  | pitch => simp [after, hd.pitch hp]
  | splineElevation => simp [after, hd.splineElevation hp]
  | fallTime | fallVerticalSpeed => simp [after, hd.fall hp]
  | fallCosAngle | fallSinAngle | fallHorizontalSpeed =>
    simp [after, hd.direction (direction_of_not hp)]
  | hasTransportTime2 | hasTransportTime3 | transportPositionX | transportPositionY
  | transportPositionZ | transportSeat | transportTime => simp [after, hd.transport hp]
  | transportTime2 => simp [after, hd.time2_of_not hp]
  | transportTime3 => simp [after, hd.time3_of_not hp]
  | _ => cases hp

theorem readElement_hasTransportGuidByte (i : Fin 8) (hon : .hasTransportData ∈ seen)
    (hnot : .transportGuidByte i ∉ seen) (hguid : info.transportBit = info.onTransport)
    (h : ReadsBack (pieces F info [.hasTransportGuidByte i]) b b') :
    readElement F (after F info seen) (.hasTransportGuidByte i) b =
      some (after F info (.hasTransportGuidByte i :: seen), b') := by
  have htid : setByte (after F info seen).tid i (bitByte (ofGuid info.tGuid i != 0)) =
      (after F info (.hasTransportGuidByte i :: seen)).tid :=
    setByte_hasByte (by simp [hnot]) fun j hj => by simp [hj]
  rw [readElement]
  refine takeIf_of_pieces ?_ h (fun _ hr => (takeBit_of_read hr).trans ?_) fun hp =>
    (after_absent hd hp).symm
  · simp [after, hon, hguid, present]
  rw [htid]
  simp [after]

theorem readElement_transportGuidByte (i : Fin 8) (hon : .hasTransportData ∈ seen)
    (hhas : .hasTransportGuidByte i ∈ seen) (hnot : .transportGuidByte i ∉ seen)
    (hguid : info.transportBit = info.onTransport)
    (h : ReadsBack (pieces F info [.transportGuidByte i]) b b') :
    readElement F (after F info seen) (.transportGuidByte i) b =
      some (after F info (.transportGuidByte i :: seen), b') := by
  have hknown : (after F info seen).tid i = bitByte (ofGuid info.tGuid i != 0) := by
    simp [after, knownByte, hnot, hhas]
  have htid : setByte (after F info seen).tid i (ofGuid info.tGuid i) =
      (after F info (.transportGuidByte i :: seen)).tid :=
    setByte_byte (by simp) fun j hj => by simp [hj]
  have hdata : (after F info seen).hasTransportData = info.onTransport := by
    simp [after, hon, hguid]
  have hread := read_of_pieces h
  rw [readElement, hdata, Reading.takeIf]
  cases hp : info.onTransport with
  | true =>
    rw [present, hp, Bool.true_and] at hread
    rw [if_pos rfl, hknown, takeByteSeq_of_read hread, htid]
    simp [after, hon, hguid.trans hp]
  | false =>
    have hnone : present F info (.transportGuidByte i) = false := by
      rw [present, hp, Bool.false_and]
    rw [hnone, if_neg Bool.false_ne_true] at hread
    rw [if_neg Bool.false_ne_true, hread, after_absent hd hnone]

/-- **One element.**  What the reader does with it, after those that it needs. -/
theorem readElement_after (hneeds : ∀ x ∈ e.needs, x ∈ seen) (hbars : ∀ x ∈ e.bars, x ∉ seen)
    (hguid : .hasTransportData ∈ seen → info.transportBit = info.onTransport)
    (h : ReadsBack (pieces F info [e]) b b') :
    readElement F (after F info seen) e b = some (after F info (e :: seen), b') := by
  have habsent (hp : present F info e = false) :
      after F info seen = after F info (e :: seen) := (after_absent hd hp).symm
  cases e with
  | hasMovementFlags | hasMovementFlags2 | hasTimestamp =>
    rw [readElement, takeBit_of_read (read_of_pieces h)]
    simp [after, bne]
  | hasOrientation | hasTransportData | hasPitch | hasFallData | hasSplineElevation | hasSpline
  | zeroBit | oneBit =>
    rw [readElement, takeBit_of_read (read_of_pieces h)]
    simp [after]
  | positionX | positionY | positionZ | counter | height | speed kind =>
    rw [readElement]
    refine (take_of_read .uint32 (read_of_pieces h)).trans ?_
    simp [after]
  | hasGuidByte i => exact readElement_hasGuidByte i (hbars _ (mem_singleton_self _)) h
  | guidByte i =>
    exact readElement_guidByte i (hneeds _ (mem_singleton_self _)) (hbars _ (mem_singleton_self _)) h
  | hasTransportGuidByte i =>
    have hon : .hasTransportData ∈ seen := hneeds _ (mem_singleton_self _)
    exact readElement_hasTransportGuidByte hd i hon (hbars _ (mem_singleton_self _)) (hguid hon) h
  | transportGuidByte i =>
    have hon : .hasTransportData ∈ seen := hneeds _ mem_cons_self
    have hhas : .hasTransportGuidByte i ∈ seen :=
      hneeds _ (mem_cons_of_mem _ (mem_singleton_self _))
    exact readElement_transportGuidByte hd i hon hhas (hbars _ (mem_singleton_self _)) (hguid hon) h
  | hasFallDirection | hasTransportTime2 | hasTransportTime3 =>
    simp only [needs, forall_mem_singleton] at hneeds
    rw [readElement]
    refine takeIf_of_pieces ?_ h (fun _ hr => (takeBit_of_read hr).trans ?_) habsent
    · simp [after, hneeds, hguid, present]
    · simp [after]
  | timestamp | pitch | splineElevation | fallTime | fallVerticalSpeed | fallCosAngle | fallSinAngle
  | fallHorizontalSpeed | transportPositionX | transportPositionY | transportPositionZ
  | transportTime | transportTime2 | transportTime3 =>
    simp only [needs, forall_mem_cons] at hneeds
    rw [readElement]
    refine takeIf_of_pieces ?_ h (fun _ hr => (take_of_read .uint32 hr).trans ?_) habsent
    · simp [after, hneeds, hguid, present]
    · simp [after]
  | transportSeat =>
    simp only [needs, forall_mem_singleton] at hneeds
    rw [readElement]
    refine takeIf_of_pieces ?_ h (fun _ hr => (take_of_read .int8 hr).trans ?_) habsent
    · simp [after, hneeds, hguid, present]
    · simp [after]
  | orientation | transportOrientation =>
    simp only [needs, forall_mem_singleton] at hneeds
    rw [readElement]
    refine takeIf_of_pieces ?_ h (fun hp hr => (take_of_read .uint32 hr).trans ?_) habsent
    · simp [after, hneeds, hguid, present]
    rw [present] at hp
    simp [after, readOrientation, readTransportOrientation, hp]
  | movementFlags =>
    simp only [needs, forall_mem_singleton] at hneeds
    rw [readElement]
    refine takeIf_of_pieces ?_ h (fun _ hr => (takeBits_of_read hd.flags hr).trans ?_) habsent
    · simp [after, hneeds, present]
    · simp [after]
  | movementFlags2 =>
    simp only [needs, forall_mem_singleton] at hneeds
    rw [readElement]
    refine takeIf_of_pieces ?_ h (fun _ hr => (takeBits_of_read hd.flags2 hr).trans ?_) habsent
    · simp [after, hneeds, present]
    · simp [after]

end

/-! ### Whole packets -/

/-- Every element comes after those it needs, and no part of a guid comes again. -/
def Legal : List Element → List Element → Prop
  | _, [] => True
  | seen, e :: es =>
    (∀ x ∈ e.needs, x ∈ seen) ∧ (∀ x ∈ e.bars, x ∉ seen) ∧ Legal (e :: seen) es

theorem Legal.of_append {es' : List Element} (h : Legal seen (es ++ es')) : Legal seen es := by
  induction es generalizing seen with
  | nil => trivial
  | cons e es ih => exact ⟨h.1, h.2.1, ih h.2.2⟩

variable {pre : List Element}

theorem one_lt_count {x : Element} (hpre : x ∈ pre) (post : List Element) :
    1 < (pre ++ x :: post).count x := by
  have hone := count_pos_iff.mpr hpre
  rw [count_append, count_cons_self]
  omega

theorem WellFormed.needs_of_mem (h : WellFormed es) (pre post : List Element)
    (hsplit : es = pre ++ e :: post) : ∀ x ∈ e.needs, x ∈ pre := by
  subst hsplit
  intro x hx
  have hlt : pre.length < (pre ++ e :: post).length := by
    rw [length_append, length_cons]
    omega
  have hget : (pre ++ e :: post)[pre.length] = e := by
    rw [getElem_append_right (Nat.le_refl _)]
    simp
  have hmem := h.preceded pre.length hlt x (by rw [hget]; exact hx)
  rwa [take_left] at hmem

variable {post : List Element}

theorem WellFormed.bars_of_mem (h : WellFormed es)
    (hsplit : es = pre ++ e :: post) : ∀ x ∈ e.bars, x ∉ pre := by
  intro x hx hpre
  have hself (hcount : es.count e = 1) : e ∉ pre := fun hmem => by
    have htwo := one_lt_count hmem post
    rw [← hsplit, hcount] at htwo
    omega
  -- a bit after its byte: there was one before the byte
  have hearlier {y : Element} (hy : y ∈ x.needs) (hcount : es.count y = 1) (heq : y = e) :
      False := by
    obtain ⟨p, q, rfl⟩ := append_of_mem hpre
    have hbefore := h.needs_of_mem p (q ++ e :: post) (by
      rw [hsplit, append_assoc, cons_append]) y hy
    exact hself (heq ▸ hcount) (heq ▸ mem_append_left _ hbefore)
  cases e with
  | guidByte i =>
    obtain rfl := mem_singleton.mp hx
    exact hself (h.once i).2.1 hpre
  | transportGuidByte i =>
    obtain rfl := mem_singleton.mp hx
    exact hself (h.once i).2.2.2 hpre
  | hasGuidByte i =>
    obtain rfl := mem_singleton.mp hx
    exact hearlier (mem_singleton_self _) (h.once i).1 rfl
  | hasTransportGuidByte i =>
    obtain rfl := mem_singleton.mp hx
    exact hearlier (mem_cons_of_mem _ (mem_singleton_self _)) (h.once i).2.2.1 rfl
  | _ => cases hx

theorem WellFormed.legal (h : WellFormed es) (pre : List Element)
    (hsplit : es = pre ++ post) : Legal pre.reverse post := by
  induction post generalizing pre with
  | nil => trivial
  | cons e post ih =>
    refine ⟨fun x hx => ?_, fun x hx => ?_, ?_⟩
    · exact mem_reverse.mpr (h.needs_of_mem pre post hsplit x hx)
    · exact fun hmem => h.bars_of_mem hsplit x hx (mem_reverse.mp hmem)
    have hnext := ih (pre ++ [e]) (by rw [hsplit, append_assoc]; rfl)
    rwa [reverse_append] at hnext

/-- **A run of the reader** over the pieces of the packet. -/
theorem readElements_after (hd : Defaulted F info) (hlegal : Legal seen es)
    (hguid : .hasTransportData ∈ es.reverse ++ seen → info.transportBit = info.onTransport)
    (h : ReadsBack (pieces F info es) b b') :
    readElements F es (after F info seen) b = some (after F info (es.reverse ++ seen), b') := by
  induction es generalizing seen b with
  | nil =>
    cases (show b = b' from h)
    rfl
  | cons e es ih =>
    obtain ⟨hneeds, hbars, hrest⟩ := hlegal
    rw [← singleton_append, pieces_append, readsBack_append] at h
    obtain ⟨b1, hone, hmore⟩ := h
    rw [reverse_cons, append_assoc] at hguid ⊢
    have hnow := readElement_after hd hneeds hbars
      (fun hmem => hguid (mem_append_right _ (mem_append_right _ hmem))) hone
    rw [readElements, hnow]
    exact ih hrest hguid hmore

theorem extends_takeIf (h : Extends read) : Extends (s.takeIf c read) := by
  intro b b' r tail hread
  cases c with
  | true => exact h b b' r tail hread
  | false =>
    cases hread
    rfl

theorem extends_readElement (s : Reading) (e : Element) : Extends (readElement F s e) := by
  have hbit (f : Bool → Reading) : Extends (takeBit f) := extends_readBit.map f
  have hbits (n : ℕ) (f : ℕ → Reading) : Extends (takeBits n f) := (extends_readBits n 0).map f
  have hseq (byte : Byte) (f : Byte → Reading) : Extends (takeByteSeq byte f) :=
    (extends_readByteSeq byte).map f
  have htake (n : ℕ) (f : BitVec (8 * n) → Reading) : Extends (take n f) :=
    (extends_readRaw n).map fun l => f (ofBytes (8 * n) l)
  cases e <;> rw [readElement] <;> first
    | exact hbit _
    | exact hseq _ _
    | exact htake _ _
    | exact extends_takeIf (hbit _)
    | exact extends_takeIf (hbits _ _)
    | exact extends_takeIf (hseq _ _)
    | exact extends_takeIf (htake _ _)

theorem extends_readElements (es : List Element) (s : Reading) : Extends (readElements F es s) := by
  induction es generalizing s with
  | nil =>
    intro b b' r tail h
    cases h
    rfl
  | cons e es ih => exact (extends_readElement s e).bind ih

theorem readElements_append (es es' : List Element) (s : Reading) (b : ByteBuffer) :
    readElements F (es ++ es') s b =
      (readElements F es s b).bind fun r => readElements F es' r.1 r.2 := by
  induction es generalizing s b with
  | nil => rfl
  | cons e es ih =>
    rw [cons_append, readElements, readElements]
    cases readElement F s e b with
    | none => rfl
    | some r => exact ih r.1 r.2

/-! ### A transport that is not seen -/

def Keeps (s s' : Reading) : Prop := s'.hasTransportData = false ∧ s'.tid = s.tid

theorem keeps_of_map {α : Type} {o : Option (α × ByteBuffer)} {f : α → Reading}
    (hf : ∀ x, Keeps s (f x)) (h : (o.map fun r => (f r.1, r.2)) = some (s', b')) : Keeps s s' := by
  obtain ⟨r, -, heq⟩ := map_eq_some_iff.mp h
  cases heq
  exact hf r.1

theorem keeps_takeIf (hs : s.hasTransportData = false) (h : s.takeIf c read b = some (s', b'))
    (hread : c = true → read b = some (s', b') → Keeps s s') : Keeps s s' := by
  cases c with
  | true => exact hread rfl h
  | false =>
    cases h
    exact ⟨hs, rfl⟩

theorem readElement_keeps (hne : e ≠ .hasTransportData)
    (hs : s.hasTransportData = false) (h : readElement F s e b = some (s', b')) : Keeps s s' := by
  have hbit {f : Bool → Reading} (h : takeBit f b = some (s', b')) (hf : ∀ x, Keeps s (f x)) :
      Keeps s s' := keeps_of_map hf h
  have hbits {n : ℕ} {f : ℕ → Reading} (h : takeBits n f b = some (s', b'))
      (hf : ∀ x, Keeps s (f x)) : Keeps s s' := keeps_of_map hf h
  have hseq {byte : Byte} {f : Byte → Reading} (h : takeByteSeq byte f b = some (s', b'))
      (hf : ∀ x, Keeps s (f x)) : Keeps s s' := keeps_of_map hf h
  have htake {n : ℕ} {f : BitVec (8 * n) → Reading} (h : take n f b = some (s', b'))
      (hf : ∀ x, Keeps s (f x)) : Keeps s s' :=
    keeps_of_map (o := b.readRaw n) (f := fun l => f (ofBytes (8 * n) l)) (fun l => hf _) h
  cases e <;> rw [readElement] at h <;> first
    | exact absurd rfl hne
    | exact hbit h fun _ => ⟨hs, rfl⟩
    | exact hseq h fun _ => ⟨hs, rfl⟩
    | exact htake h fun _ => ⟨hs, rfl⟩
    | exact keeps_takeIf hs h fun hc _ => absurd (hs.symm.trans hc) Bool.false_ne_true
    | exact keeps_takeIf hs h fun _ h => hbit h fun _ => ⟨hs, rfl⟩
    | exact keeps_takeIf hs h fun _ h => hbits h fun _ => ⟨hs, rfl⟩
    | exact keeps_takeIf hs h fun _ h => htake h fun _ => ⟨hs, rfl⟩

theorem readElements_keeps (hne : .hasTransportData ∉ es)
    (hs : s.hasTransportData = false) (h : readElements F es s b = some (s', b')) : Keeps s s' := by
  induction es generalizing s b with
  | nil =>
    cases h
    exact ⟨hs, rfl⟩
  | cons e es ih =>
    rw [mem_cons, not_or] at hne
    obtain ⟨r, hone, hmore⟩ := bind_eq_some_iff.mp h
    have hfirst := readElement_keeps (Ne.symm hne.1) hs hone
    have hrest := ih hne.2 hfirst.1 hmore
    exact ⟨hrest.1, hrest.2.trans hfirst.2⟩

/-! ### The round trip -/

variable (F) in
/-- A packet that is written, sent, and read into a new info. -/
def transmit (sequence : List Element) (info : MovementInfo) : Option (MovementInfo × ByteBuffer) :=
  (writeOld F sequence info .empty).bind fun b => readOld F sequence (received b.storage)

variable (F) in
/-- Every part that the sequence carries is recovered, and the packet is read to its end. -/
def Carried (sequence : List Element) (info : MovementInfo) : Prop :=
  ∃ info' r, transmit F sequence info = some (info', r) ∧
    (∀ e ∈ looked sequence, e.Recovered info info') ∧ r.rpos = r.size

/-- What the round trip asks of the info: a transport whose guid has something in its lower
half, orientations that are normalized, and whole bytes. -/
structure Readable (F : FloatOps) (es : List Element) (info : MovementInfo) : Prop where
  transport : info.tGuid ≠ 0 → info.tGuid.setWidth 32 ≠ 0
  orientation : .orientation ∈ es → info.hasOrientation F = true →
    F.normalizeOrientation info.pos.orientation = info.pos.orientation
  transportOrientation : .transportOrientation ∈ es → info.onTransport = true →
    F.normalizeOrientation info.tPos.orientation = info.tPos.orientation
  whole : Whole F info es

theorem transportBit_eq (h : info.tGuid ≠ 0 → info.tGuid.setWidth 32 ≠ 0) :
    info.transportBit = info.onTransport := by
  rw [transportBit, onTransport]
  by_cases hzero : info.tGuid = 0
  · rw [hzero]
    rfl
  · rw [bne_iff_ne.mpr hzero, bne_iff_ne.mpr (h hzero)]

theorem value_ofGuid (guid : BitVec 64) : value (ofGuid guid) = guid :=
  ofBytes_toBytes 8 guid

theorem WellFormed.mem_once (h : WellFormed es) (i : Fin 8) :
    .guidByte i ∈ es ∧ .transportGuidByte i ∈ es := by
  obtain ⟨-, hguid, -, htransport⟩ := h.once i
  constructor <;> exact count_pos_iff.mp (by omega)

theorem recovered_after (h : WellFormed es) (he : e ∈ es)
    (horientation : e = .orientation → readOrientation F info = info.pos.orientation)
    (htransport : e = .transportOrientation →
      readTransportOrientation F info = info.tPos.orientation) :
    e.Recovered info (after F info es.reverse).result := by
  have hguid : (after F info es.reverse).result.guid = info.guid := by
    have hid : (after F info es.reverse).id = ofGuid info.guid := by
      funext i
      simp [after, knownByte, (h.mem_once i).1]
    rw [Reading.result, hid]
    exact value_ofGuid info.guid
  have htguid : (after F info es.reverse).result.tGuid = info.tGuid := by
    have htid : (after F info es.reverse).tid = ofGuid info.tGuid := by
      funext i
      simp [after, knownByte, (h.mem_once i).2]
    rw [Reading.result, htid]
    exact value_ofGuid info.tGuid
  have hmem : e ∈ es.reverse := mem_reverse.mpr he
  cases e with
  | guidByte i => exact hguid
  | transportGuidByte i => exact htguid
  | orientation => exact (if_pos hmem).trans (horientation rfl)
  | transportOrientation => exact (if_pos hmem).trans (htransport rfl)
  | speed kind => exact if_pos ⟨kind, hmem⟩
  | hasSpline => exact (congrArg (· && _) (decide_eq_true hmem)).trans (Bool.true_and _)
  | _ => first
    | exact if_pos hmem
    | trivial

variable (F info) in
theorem written_packet {sequence : List Element} (h : WellFormed (looked sequence)) :
    ∃ b r tail, writeOld F sequence info .empty = some b ∧
      (tail = [] ↔ Whole F info (looked sequence)) ∧
        ReadsBack (pieces F info (looked sequence)) (put (received b.storage) tail) r ∧
          r.rpos = r.size := by
  obtain ⟨haligned, hwhole⟩ := h.shape F info
  have hlength : (looked sequence).length ≤ mseCount := length_take_le _ _
  obtain ⟨b, r, hwrite, hpending, hread, hend⟩ :=
    sent_pieces plain_pieces haligned (fits_pieces hlength)
  refine ⟨b, r, pending b, ?_, hpending.trans hwhole, ?_, hend⟩
  · rw [writeOld, writeElements_eq, hwrite]
  rw [put_received]
  exact hread

theorem tid_of_unseen (hd : Defaulted F info) (h : WellFormed es)
    (honce : es.count .hasTransportData = 1) (hbit : info.transportBit = false) {r : ByteBuffer}
    (hback : ReadsBack (pieces F info es) b r)
    (hread : readElements F es {} b = some (s, b')) : s.tid = fun _ => 0 := by
  have hmem : .hasTransportData ∈ es := count_pos_iff.mp (by omega)
  obtain ⟨pre, post, hsplit⟩ := append_of_mem hmem
  rw [hsplit, count_append, count_cons_self] at honce
  have hpre : .hasTransportData ∉ pre := count_eq_zero.mp (by omega)
  have hpost : .hasTransportData ∉ post := count_eq_zero.mp (by omega)
  -- no part of the transport's guid before its bit
  have hguid (i : Fin 8) : .hasTransportGuidByte i ∉ pre ∧ .transportGuidByte i ∉ pre := by
    constructor
    · intro hin
      obtain ⟨p, q, rfl⟩ := append_of_mem hin
      have hneed := h.needs_of_mem (e := .hasTransportGuidByte i) p _
        (by rw [hsplit, append_assoc]; rfl) _ (mem_singleton_self _)
      exact hpre (mem_append_left _ hneed)
    intro hin
    obtain ⟨p, q, rfl⟩ := append_of_mem hin
    have hneed := h.needs_of_mem (e := .transportGuidByte i) p _
      (by rw [hsplit, append_assoc]; rfl) _ mem_cons_self
    exact hpre (mem_append_left _ hneed)
  have htid : (after F info pre.reverse).tid = fun _ => 0 := by
    funext i
    simp [after, knownByte, (hguid i).1, (hguid i).2]
  rw [hsplit, pieces_append, readsBack_append] at hback
  obtain ⟨b1, hbefore, hrest⟩ := hback
  rw [← singleton_append, pieces_append, readsBack_append] at hrest
  obtain ⟨b2, hone, -⟩ := hrest
  have hlegal : Legal [] pre := by
    have hall : Legal [] es := h.legal [] rfl
    rw [hsplit] at hall
    exact hall.of_append
  have hrun := readElements_after hd hlegal (fun hin => by
    rw [append_nil, mem_reverse] at hin
    exact absurd hin hpre) hbefore
  rw [after_nil, append_nil] at hrun
  rw [hsplit, readElements_append, hrun, bind_some, readElements] at hread
  obtain ⟨⟨s2, b3⟩, hnow, hlater⟩ := bind_eq_some_iff.mp hread
  rw [readElement, takeBit_of_read (read_of_pieces hone)] at hnow
  cases hnow
  have hkeeps := readElements_keeps hpost hbit hlater
  exact hkeeps.2.trans htid

/-- **The round trip of a movement packet.**  What is readable is carried; and what is carried
is readable, where the bit for the transport comes once, or the transport's guid has something
in its lower half. -/
theorem codec_right_iff {sequence : List Element} (h : WellFormed (looked sequence))
    (hd : Defaulted F info) : (Readable F (looked sequence) info → Carried F sequence info) ∧
      (((looked sequence).count .hasTransportData = 1 ∨
          (info.tGuid ≠ 0 → info.tGuid.setWidth 32 ≠ 0)) →
        Carried F sequence info → Readable F (looked sequence) info) := by
  obtain ⟨b, r, tail, hwrite, hwhole, hback, hend⟩ := written_packet F info h
  have hrun (hbit : info.transportBit = info.onTransport) :
      readElements F (looked sequence) {} (put (received b.storage) tail) =
        some (after F info (looked sequence).reverse, r) := by
    have hall := readElements_after hd (h.legal [] rfl) (fun _ => hbit) hback
    rwa [reverse_nil, after_nil, append_nil] at hall
  constructor
  · intro hreadable
    have htail : tail = [] := hwhole.mpr hreadable.whole
    have hread := hrun (transportBit_eq hreadable.transport)
    rw [htail, put_nil] at hread
    refine ⟨(after F info (looked sequence).reverse).result, r, ?_, fun e he => ?_, hend⟩
    · rw [transmit, hwrite, bind_some, readOld, hread]
      rfl
    refine recovered_after h he (fun heq => ?_) fun heq => ?_
    · subst heq
      cases hpresent : info.hasOrientation F with
      | true => rw [readOrientation, if_pos hpresent, hreadable.orientation he hpresent]
      | false => rw [readOrientation, hpresent, hd.orientation hpresent]; rfl
    subst heq
    cases hon : info.onTransport with
    | true => rw [readTransportOrientation, if_pos hon, hreadable.transportOrientation he hon]
    | false => rw [readTransportOrientation, hon, (hd.transport hon).1]; rfl
  rintro hcase ⟨info', r', hcarried, hrecovered, hend'⟩
  rw [transmit, hwrite, bind_some, readOld] at hcarried
  obtain ⟨⟨s, r''⟩, hread, heq⟩ := map_eq_some_iff.mp hcarried
  cases heq
  -- the reader does the same with the bits that stay behind
  have hlonger := extends_readElements _ _ _ _ _ tail hread
  have htransport : info.tGuid ≠ 0 → info.tGuid.setWidth 32 ≠ 0 := by
    rcases hcase with honce | hlow
    · intro hguid hzero
      have hbit : info.transportBit = false := by
        rw [transportBit, hzero]
        rfl
      have htid := tid_of_unseen hd h honce hbit hback hlonger
      have hsame : s.tid.value = info.tGuid := hrecovered _ (h.mem_once 0).2
      rw [htid] at hsame
      exact hguid (hsame.symm.trans rfl)
    · exact hlow
  have hsame := hlonger.symm.trans (hrun (transportBit_eq htransport))
  simp only [some.injEq, Prod.mk.injEq] at hsame
  obtain ⟨rfl, rfl⟩ := hsame
  refine ⟨htransport, fun hmem hpresent => ?_, fun hmem hon => ?_, hwhole.mp ?_⟩
  · have horientation := hrecovered _ hmem
    change (after F info (looked sequence).reverse).info.pos.orientation = _ at horientation
    rw [after, if_pos (mem_reverse.mpr hmem), readOrientation, if_pos hpresent] at horientation
    exact horientation
  · have horientation := hrecovered _ hmem
    change (after F info (looked sequence).reverse).info.tPos.orientation = _ at horientation
    rw [after, if_pos (mem_reverse.mpr hmem), readTransportOrientation, if_pos hon]
      at horientation
    exact horientation
  have hsize : (put r'' tail).rpos = (put r'' tail).size := hend
  simp only [put, ByteBuffer.size, length_append] at hsize hend'
  exact length_eq_zero_iff.mp (by omega)

def playerMoveSequence : List Element :=
  [.hasFallData, .hasGuidByte 3, .hasGuidByte 6, .hasMovementFlags2, .hasSpline, .hasTimestamp,
    .hasGuidByte 0, .hasGuidByte 1, .movementFlags2, .hasGuidByte 7, .hasMovementFlags,
    .hasOrientation, .hasGuidByte 2, .hasSplineElevation, .zeroBit, .hasGuidByte 4,
    .hasFallDirection, .hasGuidByte 5, .hasTransportData, .movementFlags, .hasTransportGuidByte 3,
    .hasTransportTime3, .hasTransportGuidByte 6, .hasTransportGuidByte 1, .hasTransportGuidByte 7,
    .hasTransportGuidByte 0, .hasTransportGuidByte 4, .hasTransportTime2, .hasTransportGuidByte 5,
    .hasTransportGuidByte 2, .hasPitch, .guidByte 5, .fallHorizontalSpeed, .fallCosAngle,
    .fallSinAngle, .fallVerticalSpeed, .fallTime, .splineElevation, .guidByte 7, .positionY,
    .guidByte 3, .transportTime3, .transportGuidByte 6, .transportSeat, .transportGuidByte 5,
    .transportPositionX, .transportGuidByte 1, .transportOrientation, .transportGuidByte 2,
    .transportTime2, .transportGuidByte 0, .transportPositionZ, .transportGuidByte 7,
    .transportGuidByte 4, .transportGuidByte 3, .transportPositionY, .transportTime, .guidByte 4,
    .positionX, .guidByte 6, .positionZ, .timestamp, .guidByte 2, .pitch, .guidByte 0,
    .orientation, .guidByte 1]

/-- Float operations that are right for zeros and for angles of the first turn. -/
def exampleFloats : FloatOps where
  fuzzyZero x := !nonzero x
  normalizeOrientation x := x

def fallingPlayer : MovementInfo :=
  { guid := 0x0100000000000007, flags := 0x800, time := 1000, fallTime := 20,
    jZspeed := 0xC0000000, pos := { positionX := 0x42C80000, orientation := 0x3F800000 } }

theorem codec_right_falling : Carried exampleFloats playerMoveSequence fallingPlayer :=
  (codec_right_iff (by
      refine ⟨?_, ?_, ?_⟩
      · decide +kernel
      · decide +kernel
      · decide +kernel)
    (by
      refine ⟨?_, ?_, ?_, ?_, ?_, ?_, ?_, ?_⟩
      all_goals decide +kernel)).1
    ⟨by decide +kernel, fun _ _ => rfl, fun _ _ => rfl,
      .inr ⟨.positionX, by decide +kernel, rfl, rfl⟩⟩

/-- A transport whose guid has nothing in its lower half is written and not read: the receiver
takes its parts for those that come after them. -/
theorem transport_unseen : WellFormed (looked playerMoveSequence) ∧
    Defaulted exampleFloats { fallingPlayer with tGuid := 0x100000000 } ∧
      ¬ Carried exampleFloats playerMoveSequence { fallingPlayer with tGuid := 0x100000000 } := by
  refine ⟨⟨?_, ?_, ?_⟩, ⟨?_, ?_, ?_, ?_, ?_, ?_, ?_, ?_⟩, ?_⟩
  iterate 11 decide +kernel
  rintro ⟨info', r, htransmit, hrecovered, -⟩
  have hguid : (transmit exampleFloats playerMoveSequence
      { fallingPlayer with tGuid := 0x100000000 }).map (·.1.tGuid) = some 0 := by
    decide +kernel
  rw [htransmit] at hguid
  have hsame : info'.tGuid = 0x100000000 := hrecovered (.transportGuidByte 0) (by decide +kernel)
  rw [map_some, hsame] at hguid
  exact absurd (some.inj hguid) (by decide)

end ZerosCore.Movement
