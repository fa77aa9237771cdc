/-
# Reading commands from the socket of a logon client

`AuthSocket::OnRead`, the part of its handlers that reads a command
(`src/server/authserver/Server/AuthSocket.cpp`), and `RealmSocket::recv_len`,
`recv_soft`, `recv`, `recv_skip` and `handle_input` (`RealmSocket.cpp`).

A client sends commands one behind the other.  `handle_input` reads what there
is into a buffer of 4096 bytes and calls `OnRead`, which looks at the first
byte, calls the handler of that command, and starts again; a handler takes its
command from the buffer itself and returns `false` when the command is not
complete.  A proof or a request for the realm list has a fixed size.  A
challenge carries its size in a header of four bytes, and its handlers take that
header from the buffer before they know whether the rest is there.

What a handler does with a complete command is a parameter: it changes the
state of the connection, may close the socket, and tells `OnRead` whether to go
on.  `received` and `handled` record the bytes read from the client and the
commands given to the handlers; no operation reads them.
-/

import ZerosCore.Lib.Block
import Mathlib.Data.UInt

namespace ZerosCore.AuthSocket

open Lib

/-- `eAuthCmd`, as far as the client may send it. -/
inductive Command
  | logonChallenge
  | logonProof
  | reconnectChallenge
  | reconnectProof
  | realmList
  | xferAccept
  | xferResume
  | xferCancel
  deriving DecidableEq

/-- The first byte of a command. -/
def Command.code : Command → UInt8
  | .logonChallenge => 0x00
  | .logonProof => 0x01
  | .reconnectChallenge => 0x02
  | .reconnectProof => 0x03
  | .realmList => 0x10
  | .xferAccept => 0x32
  | .xferResume => 0x33
  | .xferCancel => 0x34

/-- `eStatus`. -/
inductive Status
  | connected
  | authed
  deriving DecidableEq

def table : List (Command × Status) :=
  [(.logonChallenge, .connected), (.logonProof, .connected), (.reconnectChallenge, .connected),
    (.reconnectProof, .connected), (.realmList, .authed), (.xferAccept, .connected),
    (.xferResume, .connected), (.xferCancel, .connected)]

/-- The entry of `table` for a first byte, which may need an authenticated client. -/
def findCommand (authed : Bool) (cmd : UInt8) : Option Command :=
  (table.find? fun e => e.1.code = cmd && (e.2 = .connected || (authed && e.2 = .authed))).map
    Prod.fst

/-! ### Taking a command from the buffer -/

/-- What a handler does with the buffer. -/
inductive Reading
  /-- It returns `false` and leaves the buffer as it is. -/
  | short
  /-- It returns `false` after it took so many bytes. -/
  | dropped (n : ℕ)
  /-- It takes a command of so many bytes. -/
  | command (n : ℕ)

/-- `sizeof (sAuthLogonChallenge_C)`, `sizeof (sAuthLogonProof_C)` and
`sizeof (sAuthReconnectProof_C)`. -/
def challengeSize : ℕ := 35
def logonProofSize : ℕ := 75
def reconnectProofSize : ℕ := 58

/-- The `size` field of a challenge. -/
def declaredSize (bytes : List UInt8) : ℕ :=
  (bytes.getD 2 0).toNat + (bytes.getD 3 0).toNat * 2 ^ 8

/-- The reading of `_HandleLogonChallenge` and `_HandleReconnectChallenge`. -/
def readChallenge (bytes : List UInt8) : Reading :=
  if bytes.length < challengeSize then .short
  else
    -- the header is taken from the buffer here
    let remaining := declaredSize bytes
    if remaining < challengeSize - 4 ∨ bytes.length - 4 < remaining then .dropped 4
    else .command (4 + remaining)

def readFixed (size : ℕ) (bytes : List UInt8) : Reading :=
  if bytes.length < size then .short else .command size

/-- The reading of each handler.  `pPatch` is never set, so that `_HandleXferAccept` and
`_HandleXferResume` return at once. -/
def Command.read : Command → List UInt8 → Reading
  | .logonChallenge, bytes => readChallenge bytes
  | .logonProof, bytes => readFixed logonProofSize bytes
  | .reconnectChallenge, bytes => readChallenge bytes
  | .reconnectProof, bytes => readFixed reconnectProofSize bytes
  | .realmList, bytes => readFixed 5 bytes
  | .xferAccept, _ => .short
  | .xferResume, _ => .short
  | .xferCancel, bytes => readFixed 1 bytes

/-! ### `OnRead` -/

/-- What a handler answers: its return value, and whether it called `shutdown`. -/
structure Answer where
  ret : Bool
  shutdown : Bool

/-- The handlers, over a state of the connection with the flag `_authed`. -/
structure Handlers (σ : Type*) where
  authed : σ → Bool
  handle : σ → Command → List UInt8 → σ × Answer

/-- What a call of `OnRead` did: the state, the bytes taken from the buffer, the commands given
to handlers, and whether the socket was shut down. -/
structure Outcome (σ : Type*) where
  env : σ
  taken : ℕ
  handled : List (Command × List UInt8)
  shutdown : Bool

variable {σ : Type*} (h : Handlers σ)

/-- `OnRead` on the bytes in the buffer; a round takes at least one byte. -/
def onRead : ℕ → σ → List UInt8 → Outcome σ
  | _, env, [] => ⟨env, 0, [], false⟩
  | 0, env, _ :: _ => ⟨env, 0, [], false⟩
  | fuel + 1, env, b :: bytes =>
    match findCommand (h.authed env) b with
    | none => ⟨env, 0, [], true⟩
    | some command =>
      match command.read (b :: bytes) with
      | .short => ⟨env, 0, [], false⟩
      | .dropped n => ⟨env, n, [], false⟩
      | .command n =>
        let message := (b :: bytes).take n
        let out := h.handle env command message
        if out.2.ret then
          let rest := onRead fuel out.1 ((b :: bytes).drop n)
          { env := rest.env, taken := n + rest.taken, handled := (command, message) :: rest.handled
            shutdown := out.2.shutdown || rest.shutdown }
        else ⟨out.1, n, [(command, message)], out.2.shutdown⟩

/-! ### The socket -/

/-- The size of `input_buffer_`. -/
def inputBufferSize : ℕ := 4096

/-- The socket, with the bytes that the client has sent and `recv` has not returned. -/
structure Socket (σ : Type*) where
  input : Block UInt8
  env : σ
  closed : Bool
  wire : List UInt8
  received : List UInt8
  handled : List (Command × List UInt8)

/-- A fresh connection whose client sends `wire`. -/
def Socket.start (env : σ) (wire : List UInt8) : Socket σ :=
  ⟨.ofBase (List.replicate inputBufferSize 0), env, false, wire, [], []⟩

/-- `handle_input` when `recv` returns `n` bytes, or as many as there are and as fit.  A `recv`
into a full buffer returns `0`, which is taken for the end of the connection. -/
def handleInput (s : Socket σ) (n : ℕ) : Socket σ :=
  let chunk := s.wire.take (min n s.input.space)
  if s.closed then s
  else if s.input.space = 0 then { s with closed := true }
  else if chunk = [] then s
  else
    match s.input.copy chunk with
    | none => s
    | some input =>
      let out := onRead h input.length s.env input.contents
      match input.advance out.taken with
      | none => s
      | some input =>
        { input := input.crunch, env := out.env, closed := out.shutdown
          wire := s.wire.drop chunk.length
          received := s.received ++ chunk
          handled := s.handled ++ out.handled }

end ZerosCore.AuthSocket
