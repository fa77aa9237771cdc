/-
# Sending packets to a client

`ServerPktHeader`, `WorldSocket::SendPacket`, `handle_output`,
`handle_output_queue` and `Update` (`src/server/game/Server/WorldSocket.cpp`),
over the message blocks and the message queue of `dep/acelite/ace`.

`SendPacket` compresses a large packet, builds its header, encrypts the header
and puts both into `m_OutBuffer` if they fit and nothing is queued, else into a
block of their own at the end of the message queue.  The queue takes a new
block, at either end, only while the sizes of its blocks are below the high
water mark.  `handle_output` sends the buffer and then the first block of the
queue; what the socket does not take goes back to where it was.

The cipher works on single bytes and the compressor on packets; both are
parameters with a state of their own.  A call of `handle_output` that returns
`-1` closes the connection (the reactor calls `handle_close`, the loop of
`WorldSocketMgr` calls `CloseSocket`).  `wire` and `accepted` record what the
socket took and the packets for which `SendPacket` returned `0`; no operation
reads them, nor `asserted`, which says that an `ACE_ASSERT` failed.
-/

import ZerosCore.Lib.Block
import Mathlib.Data.UInt

namespace ZerosCore.WorldSocket.Output

open Lib

/-- A `WorldPacket`. -/
structure WorldPacket where
  opcode : ℕ
  contents : List UInt8

/-! ### The header -/

def isLargePacket (size : ℕ) : Bool := 0x7FFF < size

/-- `ServerPktHeader`: the size of the payload and the opcode, in two or three bytes, then the
opcode in two bytes. -/
def serverPktHeader (size cmd : ℕ) : List UInt8 :=
  let large := if isLargePacket size then [UInt8.ofNat (0x80 ||| (size / 2 ^ 16 % 2 ^ 8))] else []
  large ++ [.ofNat (size / 2 ^ 8 % 2 ^ 8), .ofNat (size % 2 ^ 8), .ofNat (cmd % 2 ^ 8),
    .ofNat (cmd / 2 ^ 8 % 2 ^ 8)]

/-! ### The cipher and the compressor -/

/-- The stream cipher of `AuthCrypt` on both ends of the connection, and the compressor. -/
structure Codec (κ ζ : Type*) where
  encrypt : κ → UInt8 → UInt8 × κ
  decrypt : κ → UInt8 → UInt8 × κ
  decrypt_encrypt : ∀ k b, decrypt k (encrypt k b).1 = (b, (encrypt k b).2)
  compress : ζ → WorldPacket → WorldPacket × ζ

def cipher {κ : Type*} (f : κ → UInt8 → UInt8 × κ) : κ → List UInt8 → List UInt8 × κ
  | k, [] => ([], k)
  | k, b :: bytes =>
    let first := f k b
    let rest := cipher f first.2 bytes
    (first.1 :: rest.1, rest.2)

variable {κ ζ : Type*} (codec : Codec κ ζ)

/-- A call of `SendPacket`: whether the socket has a session, and the packet. -/
structure Call where
  session : Bool
  packet : WorldPacket

/-- The packet that is framed: a large one is compressed once there is a session. -/
def Call.pack (call : Call) (z : ζ) : WorldPacket × ζ :=
  if call.session ∧ 0x400 < call.packet.contents.length then codec.compress z call.packet
  else (call.packet, z)

/-- The encrypted header of the packet, the packet, and the states after it. -/
def Call.frame (call : Call) (state : κ × ζ) : List UInt8 × WorldPacket × κ × ζ :=
  let pkt := call.pack codec state.2
  let header := cipher codec.encrypt state.1
    (serverPktHeader (pkt.1.contents.length + 2) pkt.1.opcode)
  (header.1, pkt.1, header.2, pkt.2)

/-! ### The socket -/

def highWaterMark : ℕ := 8 * 1024 * 1024

/-- `is_full`: the sizes of the blocks, not of what is left in them. -/
def isFull (queue : List (Block UInt8)) : Bool := highWaterMark ≤ (queue.map Block.size).sum

/-- The socket as far as output is concerned. -/
structure Socket (κ ζ : Type*) where
  outBuffer : Block UInt8
  queue : List (Block UInt8)
  state : κ × ζ
  outActive : Bool
  closing : Bool
  wire : List UInt8
  accepted : List Call
  asserted : Bool

/-- A socket that is open; `OnSocketOpen` sets the size of the buffer, `Network.OutUBuff`. -/
def Socket.start (outBufferSize : ℕ) (state : κ × ζ) : Socket κ ζ :=
  ⟨.ofBase (List.replicate outBufferSize 0), [], state, true, false, [], [], false⟩

def newBlock (header contents : List UInt8) : Option (Block UInt8) :=
  let mb : Block UInt8 := .ofBase (List.replicate (contents.length + header.length) 0)
  (mb.copy header).bind fun mb => mb.copy contents

section Socket

variable (s : Socket κ ζ)

/-- `SendPacket`; `false` stands for `-1`. -/
def Socket.sendPacket (call : Call) : Socket κ ζ × Bool :=
  if s.closing then (s, false)
  else
    let frame := call.frame codec s.state
    let header := frame.1
    let contents := frame.2.1.contents
    let s := { s with state := frame.2.2 }
    if contents.length + header.length ≤ s.outBuffer.space ∧ s.queue = [] then
      match (s.outBuffer.copy header).bind fun b => b.copy contents with
      | some outBuffer => ({ s with outBuffer, accepted := s.accepted ++ [call] }, true)
      | none => ({ s with asserted := true }, false)
    else
      match newBlock header contents with
      | none => ({ s with asserted := true }, false)
      | some mb =>
        if isFull s.queue then (s, false)
        else ({ s with queue := s.queue ++ [mb], accepted := s.accepted ++ [call] }, true)

/-- What `peer().send` answers: a number of bytes, at most what it was given, or an error. -/
inductive Send
  | bytes (n : ℕ)
  | wouldBlock
  | error

/-- What `handle_output` returns. -/
inductive Return
  /-- `-1`. -/
  | failed
  /-- `0`. -/
  | done
  /-- `WRITE_MASK`. -/
  | again
  deriving DecidableEq

def Socket.handleOutputQueue (answer : Send) : Socket κ ζ × Return :=
  match s.queue with
  | [] => ({ s with outActive := false }, .done)
  | mblk :: queue =>
    let s := { s with queue }
    match answer with
    | .error => (s, .failed)
    | .wouldBlock =>
      -- the answer of `enqueue_head` is not looked at here
      let queue := if isFull queue then queue else mblk :: queue
      ({ s with queue, outActive := true }, .done)
    | .bytes n =>
      let n := min n mblk.length
      let s := { s with wire := s.wire ++ mblk.contents.take n }
      if n = 0 then (s, .failed)
      else if n < mblk.length then
        match mblk.advance n with
        | none => ({ s with asserted := true }, .failed)
        | some mblk =>
          if isFull queue then (s, .failed)
          else ({ s with queue := mblk :: queue, outActive := true }, .done)
      else if queue = [] then ({ s with outActive := false }, .done)
      else (s, .again)

/-- `handle_output` while the connection is open; `next` is the answer to a second `send`, for
the queue. -/
def Socket.send (answer next : Send) : Socket κ ζ × Return :=
  let sendLen := s.outBuffer.length
  if sendLen = 0 then s.handleOutputQueue answer
  else
    match answer with
    | .error => (s, .failed)
    | .wouldBlock => ({ s with outActive := true }, .done)
    | .bytes n =>
      let n := min n sendLen
      let s := { s with wire := s.wire ++ s.outBuffer.contents.take n }
      if n = 0 then (s, .failed)
      else if n < sendLen then
        match s.outBuffer.advance n with
        | none => ({ s with asserted := true }, .failed)
        | some outBuffer => ({ s with outBuffer := outBuffer.crunch, outActive := true }, .done)
      else { s with outBuffer := s.outBuffer.reset }.handleOutputQueue next

/-- `handle_output`, and the end of the connection when it fails. -/
def Socket.handleOutput (answer next : Send) : Socket κ ζ × Return :=
  if s.closing then (s, .failed)
  else
    let out := s.send answer next
    match out.2 with
    | .failed => ({ out.1 with closing := true }, .failed)
    | ret => (out.1, ret)

/-- The loop of `Update`, with the answers for each call of `handle_output`. -/
def Socket.updateLoop : List (Send × Send) → Socket κ ζ → Socket κ ζ
  | [], s => s
  | (answer, next) :: answers, s =>
    let out := s.handleOutput answer next
    match out.2 with
    | .again => updateLoop answers out.1
    | _ => out.1

/-- `Update`.  That `m_forceCloseTime` has passed is one of the ways in which the connection is
closed from outside. -/
def Socket.update (answers : List (Send × Send)) : Socket κ ζ :=
  if s.closing ∨ s.outActive then s
  else if s.outBuffer.length = 0 ∧ s.queue = [] then s
  else Socket.updateLoop answers s

end Socket

/-- What may happen to the output of a socket. -/
inductive Op
  | sendPacket (call : Call)
  | handleOutput (answer next : Send)
  | update (answers : List (Send × Send))
  /-- `CloseSocket` or `handle_close`. -/
  | close

def step (s : Socket κ ζ) : Op → Socket κ ζ
  | .sendPacket call => (s.sendPacket codec call).1
  | .handleOutput answer next => (s.handleOutput answer next).1
  | .update answers => s.update answers
  | .close => { s with closing := true }

/-! ### The stream of a connection -/

/-- The bytes of a list of packets, each header encrypted behind the one before, and the states
at the end. -/
def stream : κ × ζ → List Call → List UInt8 × κ × ζ
  | state, [] => ([], state)
  | state, call :: calls =>
    let frame := call.frame codec state
    let rest := stream frame.2.2 calls
    (frame.1 ++ (frame.2.1.contents ++ rest.1), rest.2)

def framed : κ × ζ → List Call → List WorldPacket
  | _, [] => []
  | state, call :: calls =>
    let frame := call.frame codec state
    frame.2.1 :: framed frame.2.2 calls

/-- A header as the client reads it: the size and the opcode. -/
def readHeader : List UInt8 → ℕ × ℕ
  | [a, b, c, d, e] =>
    ((a.toNat - 0x80) * 2 ^ 16 + b.toNat * 2 ^ 8 + c.toNat, d.toNat + e.toNat * 2 ^ 8)
  | [a, b, c, d] => (a.toNat * 2 ^ 8 + b.toNat, c.toNat + d.toNat * 2 ^ 8)
  | _ => (0, 0)

/-- How long the header is, by the first byte of the stream. -/
def headerLength (codec : Codec κ ζ) (k : κ) (stream : List UInt8) : ℕ :=
  if 0x80 ≤ ((cipher codec.decrypt k (stream.take 1)).1.headD 0).toNat then 5 else 4

/-- The client: a header, whose first bit says how long it is, and the payload behind it. -/
def clientRead (codec : Codec κ ζ) (k : κ) (stream : List UInt8) : List WorldPacket :=
  let n := headerLength codec k stream
  if h : stream.length < n then []
  else
    let plain := cipher codec.decrypt k (stream.take n)
    let header := readHeader plain.1
    let rest := stream.drop n
    let size := header.1 - 2
    if rest.length < size then []
    else ⟨header.2, rest.take size⟩ :: clientRead codec plain.2 (rest.drop size)
termination_by stream.length
decreasing_by
  have hn : 0 < headerLength codec k stream := by
    unfold headerLength
    split_ifs <;> omega
  simp only [not_lt] at h
  simp only [List.length_drop]
  omega

end ZerosCore.WorldSocket.Output
