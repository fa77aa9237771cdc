/-
# The byte buffer of the packets

`ByteBuffer` of `src/server/shared/Packets/ByteBuffer.h`: what is written into a buffer bit by
bit and byte by byte, and what is read back.

A write may fail: `append` asserts that the buffer has fewer than ten million bytes, and takes
no empty source.  A read past the end throws.  The numbers are little-endian.  `ReadByteSeq`
reads into a byte that is not zero if there is something to be read, and has to be one then;
the callers read that bit before.
-/

import Mathlib.Data.List.Basic
import Mathlib.Data.Nat.Bitwise

namespace ZerosCore.Packets

abbrev Byte := BitVec 8

structure ByteBuffer where
  rpos : ℕ
  wpos : ℕ
  bitpos : ℕ
  curbitval : Byte
  storage : List Byte

namespace ByteBuffer

def empty : ByteBuffer := ⟨0, 0, 8, 0, []⟩

def size (b : ByteBuffer) : ℕ := b.storage.length

/-- The bytes a buffer has to have fewer than before it takes more. -/
def maxSize : ℕ := 10000000

/-! ### Writing -/

/-- `append` of a source with its length. -/
def appendRaw (b : ByteBuffer) (src : List Byte) : Option ByteBuffer :=
  if src = [] then none
  else if maxSize ≤ b.size then none
  else
    let storage := b.storage ++ List.replicate (b.wpos + src.length - b.size) 0
    some
      { b with
        storage := storage.take b.wpos ++ src ++ storage.drop (b.wpos + src.length)
        wpos := b.wpos + src.length }

def clearBits (b : ByteBuffer) : ByteBuffer := { b with curbitval := 0, bitpos := 8 }

def flushBits (b : ByteBuffer) : Option ByteBuffer :=
  if b.bitpos = 8 then some b else (b.appendRaw [b.curbitval]).map clearBits

/-- `append` of a value that has these bytes. -/
def append (b : ByteBuffer) (bytes : List Byte) : Option ByteBuffer :=
  b.flushBits.bind fun b => b.appendRaw bytes

def putBit (b : ByteBuffer) (bit : Bool) : ByteBuffer :=
  { b with
    bitpos := b.bitpos - 1
    curbitval := if bit then b.curbitval ||| 1#8 <<< (b.bitpos - 1) else b.curbitval }

def writeBit (b : ByteBuffer) (bit : Bool) : Option ByteBuffer :=
  let b := b.putBit bit
  if b.bitpos = 0 then (b.appendRaw [b.curbitval]).map clearBits else some b

/-- The loop of `WriteBits`, from the highest bit. -/
def writeBits (value : ℕ) : ℕ → ByteBuffer → Option ByteBuffer
  | 0, b => some b
  | i + 1, b => (b.writeBit (value.testBit i)).bind (writeBits value i)

def writeByteSeq (b : ByteBuffer) (byte : Byte) : Option ByteBuffer :=
  if byte ≠ 0 then b.append [byte ^^^ 1] else some b

/-- `operator<<` of a string. -/
def writeString (b : ByteBuffer) (chars : List Byte) : Option ByteBuffer :=
  (if chars ≠ [] then b.appendRaw chars else some b).bind fun b => b.append [0]

/-- The loop of `appendPackGUID`: the mask and the bytes that are not zero. -/
def packLoop : ℕ → ℕ → BitVec 64 → Byte × List Byte
  | 0, _, _ => (0, [])
  | n + 1, i, guid =>
    if guid = 0 then (0, [])
    else
      let rest := packLoop n (i + 1) (guid >>> 8)
      if guid.setWidth 8 ≠ 0 then (rest.1 ||| 1#8 <<< i, guid.setWidth 8 :: rest.2) else rest

/-- A guid has eight bytes, after which nothing is left of it. -/
def appendPackGUID (b : ByteBuffer) (guid : BitVec 64) : Option ByteBuffer :=
  b.appendRaw ((packLoop 8 0 guid).1 :: (packLoop 8 0 guid).2)

/-! ### Reading -/

/-- `read<uint8>`. -/
def readByte (b : ByteBuffer) : Option (Byte × ByteBuffer) :=
  match b.storage[b.rpos]? with
  | none => none
  | some c => some (c, { b with rpos := b.rpos + 1 })

/-- `read` of a value of so many bytes. -/
def readRaw (b : ByteBuffer) (n : ℕ) : Option (List Byte × ByteBuffer) :=
  if b.size < b.rpos + n then none
  else some ((b.storage.drop b.rpos).take n, { b with rpos := b.rpos + n })

def currentBit (b : ByteBuffer) : Bool := (b.curbitval >>> (7 - b.bitpos)) &&& 1 != 0

def readBit (b : ByteBuffer) : Option (Bool × ByteBuffer) :=
  let b := { b with bitpos := b.bitpos + 1 }
  if 7 < b.bitpos then
    match { b with bitpos := 0 }.readByte with
    | none => none
    | some (c, b) =>
      let b := { b with curbitval := c }
      some (b.currentBit, b)
  else some (b.currentBit, b)

/-- The loop of `ReadBits`, whose value has 32 bits. -/
def readBits : ℕ → ℕ → ByteBuffer → Option (ℕ × ByteBuffer)
  | 0, value, b => some (value, b)
  | i + 1, value, b =>
    match b.readBit with
    | none => none
    | some (bit, b) => readBits i (if bit then value ||| (1 <<< i) % 2 ^ 32 else value) b

def readByteSeq (b : ByteBuffer) (byte : Byte) : Option (Byte × ByteBuffer) :=
  if byte ≠ 0 then
    match b.readByte with
    | none => none
    | some (c, b) => some (byte ^^^ c, b)
  else some (byte, b)

/-- The loop of `operator>>` of a string. -/
def readChars : ℕ → ByteBuffer → List Byte × ByteBuffer
  | 0, b => ([], b)
  | n + 1, b =>
    match b.readByte with
    | none => ([], b)
    | some (c, b) =>
      if c = 0 then ([], b)
      else
        let rest := readChars n b
        (c :: rest.1, rest.2)

/-- `operator>>` of a string; it ends with the buffer at the latest. -/
def readString (b : ByteBuffer) : List Byte × ByteBuffer := readChars (b.size - b.rpos) b

/-- The loop of `readPackGUID`. -/
def unpackGuid (guidmark : Byte) : ℕ → ℕ → BitVec 64 → ByteBuffer → Option (BitVec 64 × ByteBuffer)
  | 0, _, guid, b => some (guid, b)
  | n + 1, i, guid, b =>
    if guidmark &&& 1#8 <<< i ≠ 0 then
      match b.readByte with
      | none => none
      | some (c, b) => unpackGuid guidmark n (i + 1) (guid ||| c.setWidth 64 <<< (i * 8)) b
    else unpackGuid guidmark n (i + 1) guid b

def readPackGUID (b : ByteBuffer) : Option (BitVec 64 × ByteBuffer) :=
  match b.readByte with
  | none => none
  | some (guidmark, b) => unpackGuid guidmark 8 0 0 b

end ByteBuffer

/-! ### Numbers -/

inductive IntType where
  | uint8 | uint16 | uint32 | uint64 | int8 | int16 | int32 | int64

namespace IntType

/-- `sizeof`. -/
def size : IntType → ℕ
  | uint8 => 1
  | uint16 => 2
  | uint32 => 4
  | uint64 => 8
  | int8 => 1
  | int16 => 2
  | int32 => 4
  | int64 => 8

end IntType

/-- The bytes of a number, the lowest first. -/
def toBytes {w : ℕ} (n : ℕ) (v : BitVec w) : List Byte :=
  (List.range n).map fun i => v.extractLsb' (8 * i) 8

/-- The number that has these bytes. -/
def ofBytes (w : ℕ) (bytes : List Byte) : BitVec w :=
  bytes.foldr (fun c v => v <<< 8 ||| c.setWidth w) 0

/-! ### Sequences of writes and reads -/

/-- A string without a NUL. -/
structure CString where
  chars : List Byte
  nulFree : 0#8 ∉ chars

/-- A typed write.  `WriteBits` takes as many bits as `ReadBits` can answer with. -/
inductive Write where
  | bit (bit : Bool)
  | bits (value : ℕ) (n : Fin 33)
  | int (type : IntType) (value : BitVec (8 * type.size))
  | byteSeq (byte : Byte)
  | string (value : CString)
  | packGuid (guid : BitVec 64)
  | flush

/-- A typed read. -/
inductive Read where
  | bit
  | bits (n : Fin 33)
  | int (type : IntType)
  | byteSeq (byte : Byte)
  | string
  | packGuid
  | flush

/-- What a read answers with. -/
inductive Value where
  | bit (bit : Bool)
  | bits (value : ℕ)
  | int (type : IntType) (value : BitVec (8 * type.size))
  | byte (byte : Byte)
  | string (chars : List Byte)
  | guid (guid : BitVec 64)
  | nothing

namespace ByteBuffer

def write (b : ByteBuffer) : Write → Option ByteBuffer
  | .bit bit => b.writeBit bit
  | .bits value n => writeBits value n b
  | .int type value => b.append (toBytes type.size value)
  | .byteSeq byte => b.writeByteSeq byte
  | .string value => b.writeString value.chars
  | .packGuid guid => b.appendPackGUID guid
  | .flush => b.flushBits

def read (b : ByteBuffer) : Read → Option (Value × ByteBuffer)
  | .bit => b.readBit.map fun r => (.bit r.1, r.2)
  | .bits n => (readBits n 0 b).map fun r => (.bits r.1, r.2)
  | .int type => (b.readRaw type.size).map fun r => (.int type (ofBytes _ r.1), r.2)
  | .byteSeq byte => (b.readByteSeq byte).map fun r => (.byte r.1, r.2)
  | .string => some (.string b.readString.1, b.readString.2)
  | .packGuid => b.readPackGUID.map fun r => (.guid r.1, r.2)
  | .flush => some (.nothing, b)

def writeAll : List Write → ByteBuffer → Option ByteBuffer
  | [], b => some b
  | w :: ws, b => (b.write w).bind (writeAll ws)

def readAll : List Read → ByteBuffer → Option (List Value × ByteBuffer)
  | [], b => some ([], b)
  | r :: rs, b =>
    match b.read r with
    | none => none
    | some (v, b) => (readAll rs b).map fun rest => (v :: rest.1, rest.2)

end ByteBuffer

namespace Write

def read : Write → Read
  | .bit _ => .bit
  | .bits _ n => .bits n
  | .int type _ => .int type
  | .byteSeq byte => .byteSeq (if byte = 0 then 0 else 1)
  | .string _ => .string
  | .packGuid _ => .packGuid
  | .flush => .flush

/-- What the matching read should answer with. -/
def value : Write → Value
  | .bit b => .bit b
  | .bits v n => .bits (v % 2 ^ (n : ℕ))
  | .int type v => .int type v
  | .byteSeq byte => .byte byte
  | .string s => .string s.chars
  | .packGuid guid => .guid guid
  | .flush => .nothing

end Write

/-- What is written into an empty buffer is read back from the flushed one, to its end. -/
def RoundTrip (ws : List Write) : Prop :=
  ∃ b r, (ByteBuffer.writeAll ws .empty).bind ByteBuffer.flushBits = some b ∧
    ByteBuffer.readAll (ws.map Write.read) b = some (ws.map Write.value, r) ∧ r.rpos = r.size

end ZerosCore.Packets
