/-
# The movement packets

`MovementInfo::Read_OLD` and `MovementInfo::Write_OLD` of
`src/server/game/Movement/MovementInfo.cpp`, with the elements of
`src/server/game/Movement/MovementStructures.h`: the sequence of an opcode says which parts of
a `MovementInfo` its packet has, and in which order.

Some elements are bits, written and read at the front of the packet; the others are bytes.  A
part that is absent has a bit that says so, and no bytes.  The reader sees a `HasX` bit before
it comes to the `X` element, and keeps it in a variable.

`WriteBit` takes a `uint32`, so that of the 64 bits of `t_guid` it sees the lower half.  The
fields that are read start with the values the constructor gives them.  A float is its 32 bits;
the test `G3D::fuzzyEq(x, 0.0f)` and `Position::NormalizeOrientation` are parameters.
-/

import ZerosCore.Packets.ByteBuffer

namespace ZerosCore.Movement

open Packets

/-- `MovementStatusElements`, without the mark `MSEEnd` of the end.  `MSEExtraFloat`, for which
both routines fail an assertion, is left out. -/
inductive Element where
  | hasGuidByte (i : Fin 8)
  | hasMovementFlags
  | hasMovementFlags2
  | hasTimestamp
  | hasOrientation
  | hasTransportData
  | hasTransportGuidByte (i : Fin 8)
  | hasTransportTime2
  | hasTransportTime3
  | hasPitch
  | hasFallData
  | hasFallDirection
  | hasSplineElevation
  | hasSpline
  | guidByte (i : Fin 8)
  | movementFlags
  | movementFlags2
  | timestamp
  | positionX
  | positionY
  | positionZ
  | orientation
  | transportGuidByte (i : Fin 8)
  | transportPositionX
  | transportPositionY
  | transportPositionZ
  | transportOrientation
  | transportSeat
  | transportTime
  | transportTime2
  | transportTime3
  | pitch
  | fallTime
  | fallVerticalSpeed
  | fallCosAngle
  | fallSinAngle
  | fallHorizontalSpeed
  | splineElevation
  | counter
  /-- `MSESpeedWalk` to `MSESpeedPitchRate`. -/
  | speed (kind : Fin 9)
  | height
  | zeroBit
  | oneBit
deriving DecidableEq

/-- `MSE_COUNT`: so many places of a sequence are looked at. -/
def mseCount : ℕ := 80

def looked (sequence : List Element) : List Element := sequence.take mseCount

abbrev FloatBits := BitVec 32

/-- What the routines ask of floats. -/
structure FloatOps where
  /-- `G3D::fuzzyEq(x, 0.0f)` -/
  fuzzyZero : FloatBits → Bool
  normalizeOrientation : FloatBits → FloatBits

/-- A float as a condition: it is neither zero. -/
def nonzero (x : FloatBits) : Bool := x.setWidth 31 != 0

structure Position where
  positionX : FloatBits := 0
  positionY : FloatBits := 0
  positionZ : FloatBits := 0
  orientation : FloatBits := 0
deriving DecidableEq

/-- A `MovementInfo`, as its constructor makes it. -/
structure MovementInfo where
  guid : BitVec 64 := 0
  flags : BitVec 32 := 0
  flags2 : BitVec 16 := 0
  pos : Position := {}
  time : BitVec 32 := 0
  tGuid : BitVec 64 := 0
  tPos : Position := {}
  tSeat : BitVec 8 := -1
  tTime : BitVec 32 := 0
  tTime2 : BitVec 32 := 0
  tTime3 : BitVec 32 := 0
  pitch : FloatBits := 0
  fallTime : BitVec 32 := 0
  jZspeed : FloatBits := 0
  jCosAngle : FloatBits := 0
  jSinAngle : FloatBits := 0
  jXyspeed : FloatBits := 0
  hasSpline : Bool := false
  splineElevation : FloatBits := 0
  ackCount : BitVec 32 := 0
  ackSpeed : FloatBits := 0
  height : FloatBits := 0

abbrev ObjectGuid := Fin 8 → Byte

namespace ObjectGuid

def ofGuid (guid : BitVec 64) : ObjectGuid := fun i => guid.extractLsb' (8 * i) 8

def value (id : ObjectGuid) : BitVec 64 := ofBytes 64 (List.ofFn id)

end ObjectGuid

variable (F : FloatOps)

/-! ### Writing -/

namespace MovementInfo

variable (info : MovementInfo)

def hasOrientation : Bool := !F.fuzzyZero info.pos.orientation

def hasSplineElevation : Bool := !F.fuzzyZero info.splineElevation

def hasPitch : Bool := !F.fuzzyZero info.pitch

def hasFallData : Bool := info.fallTime != 0 || nonzero info.jZspeed

def hasFallDirection : Bool :=
  info.hasFallData && (nonzero info.jCosAngle || nonzero info.jSinAngle || nonzero info.jXyspeed)

/-- `if (t_guid)`. -/
def onTransport : Bool := info.tGuid != 0

/-- `t_guid` as the `uint32` that `WriteBit` takes. -/
def transportBit : Bool := info.tGuid.setWidth 32 != 0

end MovementInfo

/-- `data << x` of four bytes. -/
def put32 (b : ByteBuffer) (x : BitVec 32) : Option ByteBuffer := b.append (toBytes 4 x)

/-- One turn of the loop of `Write_OLD`. -/
def writeElement (info : MovementInfo) : Element → ByteBuffer → Option ByteBuffer
  | .hasGuidByte i, b => b.writeBit (ObjectGuid.ofGuid info.guid i != 0)
  | .hasTransportGuidByte i, b =>
    if info.onTransport then b.writeBit (ObjectGuid.ofGuid info.tGuid i != 0) else some b
  | .guidByte i, b => b.writeByteSeq (ObjectGuid.ofGuid info.guid i)
  | .transportGuidByte i, b =>
    if info.onTransport then b.writeByteSeq (ObjectGuid.ofGuid info.tGuid i) else some b
  | .speed _, b => put32 b info.ackSpeed
  | .hasMovementFlags, b => b.writeBit (info.flags == 0)
  | .hasMovementFlags2, b => b.writeBit (info.flags2 == 0)
  | .hasTimestamp, b => b.writeBit (info.time == 0)
  | .hasOrientation, b => b.writeBit !(info.hasOrientation F)
  | .hasTransportData, b => b.writeBit info.transportBit
  | .hasTransportTime2, b => if info.onTransport then b.writeBit (info.tTime2 != 0) else some b
  | .hasTransportTime3, b => if info.onTransport then b.writeBit (info.tTime3 != 0) else some b
  | .hasPitch, b => b.writeBit !(info.hasPitch F)
  | .hasFallData, b => b.writeBit info.hasFallData
  | .hasFallDirection, b => if info.hasFallData then b.writeBit info.hasFallDirection else some b
  | .hasSplineElevation, b => b.writeBit !(info.hasSplineElevation F)
  | .hasSpline, b => b.writeBit info.hasSpline
  | .movementFlags, b =>
    if info.flags != 0 then ByteBuffer.writeBits info.flags.toNat 30 b else some b
  | .movementFlags2, b =>
    if info.flags2 != 0 then ByteBuffer.writeBits info.flags2.toNat 12 b else some b
  | .timestamp, b => if info.time != 0 then put32 b info.time else some b
  | .positionX, b => put32 b info.pos.positionX
  | .positionY, b => put32 b info.pos.positionY
  | .positionZ, b => put32 b info.pos.positionZ
  | .orientation, b => if info.hasOrientation F then put32 b info.pos.orientation else some b
  | .transportPositionX, b => if info.onTransport then put32 b info.tPos.positionX else some b
  | .transportPositionY, b => if info.onTransport then put32 b info.tPos.positionY else some b
  | .transportPositionZ, b => if info.onTransport then put32 b info.tPos.positionZ else some b
  | .transportOrientation, b => if info.onTransport then put32 b info.tPos.orientation else some b
  | .transportSeat, b => if info.onTransport then b.append (toBytes 1 info.tSeat) else some b
  | .transportTime, b => if info.onTransport then put32 b info.tTime else some b
  | .transportTime2, b =>
    if info.onTransport && info.tTime2 != 0 then put32 b info.tTime2 else some b
  | .transportTime3, b =>
    if info.onTransport && info.tTime3 != 0 then put32 b info.tTime3 else some b
  | .pitch, b => if info.hasPitch F then put32 b info.pitch else some b
  | .fallTime, b => if info.hasFallData then put32 b info.fallTime else some b
  | .fallVerticalSpeed, b => if info.hasFallData then put32 b info.jZspeed else some b
  | .fallCosAngle, b =>
    if info.hasFallData && info.hasFallDirection then put32 b info.jCosAngle else some b
  | .fallSinAngle, b =>
    if info.hasFallData && info.hasFallDirection then put32 b info.jSinAngle else some b
  | .fallHorizontalSpeed, b =>
    if info.hasFallData && info.hasFallDirection then put32 b info.jXyspeed else some b
  | .splineElevation, b =>
    if info.hasSplineElevation F then put32 b info.splineElevation else some b
  | .counter, b => put32 b info.ackCount
  | .height, b => put32 b info.height
  | .zeroBit, b => b.writeBit false
  | .oneBit, b => b.writeBit true

def writeElements (info : MovementInfo) : List Element → ByteBuffer → Option ByteBuffer
  | [], b => some b
  | e :: es, b => (writeElement F info e b).bind (writeElements info es)

/-- `Write_OLD` for an opcode with this sequence. -/
def writeOld (sequence : List Element) (info : MovementInfo) (b : ByteBuffer) :
    Option ByteBuffer :=
  writeElements F info (looked sequence) b

/-! ### Reading -/

/-- The variables of `Read_OLD`, and the info it fills. -/
structure Reading where
  hasMovementFlags : Bool := false
  hasMovementFlags2 : Bool := false
  hasTimestamp : Bool := false
  hasOrientation : Bool := false
  hasTransportData : Bool := false
  hasTransportTime2 : Bool := false
  hasTransportTime3 : Bool := false
  hasPitch : Bool := false
  hasFallData : Bool := false
  hasFallDirection : Bool := false
  hasSplineElevation : Bool := false
  id : ObjectGuid := fun _ => 0
  tid : ObjectGuid := fun _ => 0
  info : MovementInfo := {}

def takeBit (f : Bool → Reading) (b : ByteBuffer) : Option (Reading × ByteBuffer) :=
  b.readBit.map fun r => (f r.1, r.2)

/-- What `ReadBits` is called for. -/
def takeBits (n : ℕ) (f : ℕ → Reading) (b : ByteBuffer) : Option (Reading × ByteBuffer) :=
  (ByteBuffer.readBits n 0 b).map fun r => (f r.1, r.2)

/-- `ReadByteSeq` into a byte. -/
def takeByteSeq (byte : Byte) (f : Byte → Reading) (b : ByteBuffer) :
    Option (Reading × ByteBuffer) :=
  (b.readByteSeq byte).map fun r => (f r.1, r.2)

/-- `data >> x` of so many bytes. -/
def take (n : ℕ) (f : BitVec (8 * n) → Reading) (b : ByteBuffer) : Option (Reading × ByteBuffer) :=
  (b.readRaw n).map fun r => (f (ofBytes (8 * n) r.1), r.2)

namespace Reading

def takeIf (s : Reading) (c : Bool) (read : ByteBuffer → Option (Reading × ByteBuffer))
    (b : ByteBuffer) : Option (Reading × ByteBuffer) :=
  if c then read b else some (s, b)

end Reading

def setByte (id : ObjectGuid) (i : Fin 8) (byte : Byte) : ObjectGuid := Function.update id i byte

def bitByte (bit : Bool) : Byte := if bit then 1 else 0

/-- One turn of the loop of `Read_OLD`. -/
def readElement (s : Reading) : Element → ByteBuffer → Option (Reading × ByteBuffer)
  | .hasGuidByte i => takeBit fun bit => { s with id := setByte s.id i (bitByte bit) }
  | .hasTransportGuidByte i =>
    s.takeIf s.hasTransportData
      (takeBit fun bit => { s with tid := setByte s.tid i (bitByte bit) })
  | .guidByte i => takeByteSeq (s.id i) fun byte => { s with id := setByte s.id i byte }
  | .transportGuidByte i =>
    s.takeIf s.hasTransportData
      (takeByteSeq (s.tid i) fun byte => { s with tid := setByte s.tid i byte })
  | .speed _ => take 4 fun x => { s with info.ackSpeed := x }
  | .hasMovementFlags => takeBit fun bit => { s with hasMovementFlags := !bit }
  | .hasMovementFlags2 => takeBit fun bit => { s with hasMovementFlags2 := !bit }
  | .hasTimestamp => takeBit fun bit => { s with hasTimestamp := !bit }
  | .hasOrientation => takeBit fun bit => { s with hasOrientation := !bit }
  | .hasTransportData => takeBit fun bit => { s with hasTransportData := bit }
  | .hasTransportTime2 =>
    s.takeIf s.hasTransportData (takeBit fun bit => { s with hasTransportTime2 := bit })
  | .hasTransportTime3 =>
    s.takeIf s.hasTransportData (takeBit fun bit => { s with hasTransportTime3 := bit })
  | .hasPitch => takeBit fun bit => { s with hasPitch := !bit }
  | .hasFallData => takeBit fun bit => { s with hasFallData := bit }
  | .hasFallDirection =>
    s.takeIf s.hasFallData (takeBit fun bit => { s with hasFallDirection := bit })
  | .hasSplineElevation => takeBit fun bit => { s with hasSplineElevation := !bit }
  | .hasSpline => takeBit fun bit => { s with info.hasSpline := bit }
  | .movementFlags =>
    s.takeIf s.hasMovementFlags (takeBits 30 fun v => { s with info.flags := BitVec.ofNat 32 v })
  | .movementFlags2 =>
    s.takeIf s.hasMovementFlags2
      (takeBits 12 fun v => { s with info.flags2 := BitVec.ofNat 16 v })
  | .timestamp => s.takeIf s.hasTimestamp (take 4 fun x => { s with info.time := x })
  | .positionX => take 4 fun x => { s with info.pos.positionX := x }
  | .positionY => take 4 fun x => { s with info.pos.positionY := x }
  | .positionZ => take 4 fun x => { s with info.pos.positionZ := x }
  | .orientation =>
    s.takeIf s.hasOrientation
      (take 4 fun x => { s with info.pos.orientation := F.normalizeOrientation x })
  | .transportPositionX =>
    s.takeIf s.hasTransportData (take 4 fun x => { s with info.tPos.positionX := x })
  | .transportPositionY =>
    s.takeIf s.hasTransportData (take 4 fun x => { s with info.tPos.positionY := x })
  | .transportPositionZ =>
    s.takeIf s.hasTransportData (take 4 fun x => { s with info.tPos.positionZ := x })
  | .transportOrientation =>
    s.takeIf s.hasTransportData
      (take 4 fun x => { s with info.tPos.orientation := F.normalizeOrientation x })
  | .transportSeat => s.takeIf s.hasTransportData (take 1 fun x => { s with info.tSeat := x })
  | .transportTime => s.takeIf s.hasTransportData (take 4 fun x => { s with info.tTime := x })
  | .transportTime2 =>
    s.takeIf (s.hasTransportData && s.hasTransportTime2)
      (take 4 fun x => { s with info.tTime2 := x })
  | .transportTime3 =>
    s.takeIf (s.hasTransportData && s.hasTransportTime3)
      (take 4 fun x => { s with info.tTime3 := x })
  | .pitch => s.takeIf s.hasPitch (take 4 fun x => { s with info.pitch := x })
  | .fallTime => s.takeIf s.hasFallData (take 4 fun x => { s with info.fallTime := x })
  | .fallVerticalSpeed => s.takeIf s.hasFallData (take 4 fun x => { s with info.jZspeed := x })
  | .fallCosAngle =>
    s.takeIf (s.hasFallData && s.hasFallDirection)
      (take 4 fun x => { s with info.jCosAngle := x })
  | .fallSinAngle =>
    s.takeIf (s.hasFallData && s.hasFallDirection)
      (take 4 fun x => { s with info.jSinAngle := x })
  | .fallHorizontalSpeed =>
    s.takeIf (s.hasFallData && s.hasFallDirection)
      (take 4 fun x => { s with info.jXyspeed := x })
  | .splineElevation =>
    s.takeIf s.hasSplineElevation (take 4 fun x => { s with info.splineElevation := x })
  | .counter => take 4 fun x => { s with info.ackCount := x }
  | .height => take 4 fun x => { s with info.height := x }
  | .zeroBit => takeBit fun _ => s
  | .oneBit => takeBit fun _ => s

def readElements : List Element → Reading → ByteBuffer → Option (Reading × ByteBuffer)
  | [], s, b => some (s, b)
  | e :: es, s, b => (readElement F s e b).bind fun r => readElements es r.1 r.2

/-- `guid = id; t_guid = tid;` -/
def Reading.result (s : Reading) : MovementInfo :=
  { s.info with guid := s.id.value, tGuid := s.tid.value }

/-- `Read_OLD` into a new `MovementInfo`. -/
def readOld (sequence : List Element) (b : ByteBuffer) : Option (MovementInfo × ByteBuffer) :=
  (readElements F (looked sequence) {} b).map fun r => (r.1.result, r.2)

end ZerosCore.Movement
