/-
# The packet queue of a session

`WorldSession::QueuePacket`, the packet loop of `WorldSession::Update` and
`PacketThrottler::MustDiscard` (`src/server/game/Server/WorldSession.cpp`), the
packet filters of the same file, and `LockedQueue::add`, `next` and `peek`
(`src/server/shared/Threading/LockedQueue.h`).

The network thread puts a packet at the end of `_recvQueue`, unless the
throttler finds that its opcode came too often in this second, and then it is
deleted.  `Update` takes packets from the front while the filter of the caller
lets them pass, and hands each one to its handler or drops it, by the status of
its opcode and the state of the client.  A `STATUS_LOGGEDIN` packet that comes
before the player is in the game goes back to the end of the queue, through
`QueuePacket` as well, and the first such packet is remembered: when it is at
the front again the loop ends.

One round of that loop is one step here, so that the socket may close and
packets may arrive between two rounds.  `opcodeTable` and `opcodePerSecond` are
parameters.  A packet is the object that arrived, numbered in the order of
arrival; the lists `accepted`, `fates`, `deleted` and `stale` record what
happened to it and are read by no operation.
-/

import Mathlib.Algebra.Ring.Nat
import Mathlib.Data.List.Basic

namespace ZerosCore.WorldSession

/-- `SessionStatus`, the state of the client in which an opcode is expected. -/
inductive Status
  | authed
  | loggedIn
  | transfer
  | loggedInOrRecentlyLoggout
  | never
  | unhandled
  deriving DecidableEq

/-- `PacketProcessing`, where a handler may run. -/
inductive Processing
  | inplace
  | threadUnsafe
  | threadSafe

/-- `OpcodeHandler`, without the handler itself. -/
structure OpcodeHandler where
  status : Status
  processingPlace : Processing

/-- `opcodeTable` and `opcodePerSecond`. -/
structure Protocol where
  opcodeTable : ℕ → OpcodeHandler
  opcodePerSecond : ℕ → ℕ

def cmsgCharEnum : ℕ := 0x0502

/-- A packet of the session: the number of its arrival and its opcode. -/
structure Packet where
  id : ℕ
  opcode : ℕ
  deriving DecidableEq

/-- What `Update` and the filters read of the session: `_player` with its `IsInWorld`,
`m_playerRecentlyLogout`, `m_playerLogout`, `m_inQueue`, and whether the socket is closed. -/
structure Client where
  player : Option Bool := none
  recentlyLogout : Bool := false
  playerLogout : Bool := false
  inQueue : Bool := false
  closed : Bool := false
  deriving DecidableEq

/-! ### The throttler -/

/-- `PacketThrottler::Entry`: the last second in which the opcode came, and how often. -/
structure Entry where
  time : ℕ := 0
  count : ℕ := 0

/-- `m_opcodes`, one entry for each opcode. -/
abbrev Throttler := ℕ → Entry

/-- `PacketThrottler::MustDiscard` at the time `now`; the count is a `uint32`. -/
def Throttler.mustDiscard (perSecond : ℕ → ℕ) (t : Throttler) (now opcode : ℕ) :
    Bool × Throttler :=
  if perSecond opcode = 0 then (false, t)
  else if now = (t opcode).time then
    let count := ((t opcode).count + 1) % 2 ^ 32
    (perSecond opcode < count, Function.update t opcode ⟨now, count⟩)
  else (false, Function.update t opcode ⟨now, 1⟩)

/-! ### The filters -/

/-- A `PacketFilter`: whether a packet may be processed now. -/
abbrev Filter := Client → Packet → Bool

variable (proto : Protocol)

/-- `MapSessionFilter::Process`, used by `Map::Update`. -/
def mapSessionFilter : Filter := fun c p =>
  match (proto.opcodeTable p.opcode).processingPlace with
  | .inplace => true
  | .threadUnsafe => false
  | .threadSafe => c.player.getD false

/-- `WorldSessionFilter::Process`, used by `World::UpdateSessions`. -/
def worldSessionFilter : Filter := fun c p =>
  match (proto.opcodeTable p.opcode).processingPlace with
  | .inplace => true
  | .threadUnsafe => true
  | .threadSafe => !c.player.getD false

/-! ### The status switch -/

/-- What `Update` does with a packet. -/
inductive Verdict
  /-- The handler is called. -/
  | process
  /-- The packet is dropped, with or without a line in the log. -/
  | reject
  /-- The packet goes back to the end of the queue. -/
  | delay
  deriving DecidableEq

/-- The `switch` over the status of the opcode. -/
def Client.verdict (c : Client) : Status → Verdict
  | .loggedIn =>
    match c.player with
    | none => if c.recentlyLogout then .reject else .delay
    | some inWorld => if inWorld then .process else .reject
  | .loggedInOrRecentlyLoggout =>
    if c.player = none ∧ c.recentlyLogout = false ∧ c.playerLogout = false then .reject
    else .process
  | .transfer =>
    match c.player with
    | none => .reject
    | some inWorld => if inWorld then .reject else .process
  | .authed => if c.inQueue then .reject else .process
  | .never => .reject
  | .unhandled => .reject

/-- What a handler may do to the client.  It may log the player out (`leaves`) or move it in or
out of the world, but no handler creates the player: that is done by `HandlePlayerLogin`, after
the packet loop. -/
structure Effect where
  leaves : Bool
  inWorld : Bool
  recentlyLogout : Bool
  playerLogout : Bool
  inQueue : Bool

def Effect.apply (e : Effect) (c : Client) : Client where
  player := if e.leaves then none else c.player.map fun _ => e.inWorld
  recentlyLogout := e.recentlyLogout
  playerLogout := e.playerLogout
  inQueue := e.inQueue
  closed := c.closed

/-! ### The session -/

/-- How a packet left the queue for good. -/
inductive Fate
  | processed
  | rejected
  deriving DecidableEq

/-- Whether a call of `Update` is in its packet loop, with its filter, `firstDelayedPacket` and
`deletePacket`. -/
inductive Control
  | idle
  | updating (filter : Filter) (firstDelayed : Option ℕ) (deletePacket : Bool)

/-- The session. -/
structure State where
  recvQueue : List Packet := []
  throttler : Throttler := fun _ => {}
  client : Client := {}
  control : Control := .idle
  /-- The number of the next packet to arrive. -/
  next : ℕ := 0
  /-- The packets that `QueuePacket` took from the socket, the newest first. -/
  accepted : List Packet := []
  /-- The packets that left the queue, the newest first. -/
  fates : List (Packet × Fate) := []
  /-- The packets that were deleted. -/
  deleted : List ℕ := []
  /-- The packets that were read after they were deleted. -/
  stale : List ℕ := []

namespace State

variable (s : State)

/-- A use of the packet object. -/
def read (p : Packet) : State :=
  if p.id ∈ s.deleted then { s with stale := p.id :: s.stale } else s

/-- `delete packet`. -/
def delete (p : Packet) : State := { s with deleted := p.id :: s.deleted }

/-- Whether `QueuePacket` would delete the packet. -/
def throttled (now : ℕ) (p : Packet) : Bool :=
  (s.throttler.mustDiscard proto.opcodePerSecond now p.opcode).1

def queuePacket (now : ℕ) (p : Packet) : State :=
  let t := s.throttler.mustDiscard proto.opcodePerSecond now p.opcode
  let s := { s with throttler := t.2 }
  if t.1 then s.delete p else { s with recvQueue := s.recvQueue ++ [p] }

/-- A packet arrives from the socket. -/
def arrive (now opcode : ℕ) : State :=
  let p : Packet := ⟨s.next, opcode⟩
  let accepted := if s.throttled proto now p then s.accepted else p :: s.accepted
  let s := s.queuePacket proto now p
  { s with next := s.next + 1, accepted }

/-- The end of a round: the packet is deleted, unless `deletePacket` was cleared. -/
def finish (p : Packet) (fate : Fate) (deletePacket : Bool) : State :=
  let s := { s with fates := (p, fate) :: s.fates }
  if deletePacket then s.delete p else s

/-- The handler is called; `CMSG_CHAR_ENUM` ends the time after a logout before that. -/
def handle (p : Packet) (e : Effect) : State :=
  let enum := (proto.opcodeTable p.opcode).status = .authed ∧ p.opcode = cmsgCharEnum
  let client := if enum then { s.client with recentlyLogout := false } else s.client
  { s with client := e.apply client }

/-- The packet goes back to the queue, and is named in the debug log after that. -/
def reenqueue (now : ℕ) (p : Packet) : State := (s.queuePacket proto now p).read p

/-- The body of the loop for the packet `p`, already taken from the queue. -/
def body (filter : Filter) (firstDelayed : Option ℕ) (deletePacket : Bool) (now : ℕ)
    (e : Effect) (p : Packet) : State :=
  let s := s.read p
  match s.client.verdict (proto.opcodeTable p.opcode).status with
  | .process => (s.handle proto p e).finish p .processed deletePacket
  | .reject => s.finish p .rejected deletePacket
  | .delay =>
    { s.reenqueue proto now p with
      control := .updating filter (some (firstDelayed.getD p.id)) false }

/-- The condition of the loop for the packet at the front. -/
def continues (filter : Filter) (firstDelayed : Option ℕ) (p : Packet) : Bool :=
  !s.client.closed && some p.id ≠ firstDelayed && filter s.client p

/-- One round of the packet loop: the end of it, or the body for the front of the queue. -/
def round (now : ℕ) (e : Effect) : State :=
  match s.control, s.recvQueue with
  | .idle, _ => s
  | .updating _ _ _, [] => { s with control := .idle }
  | .updating filter first deletePacket, p :: rest =>
    if s.continues filter first p then
      { s with recvQueue := rest }.body proto filter first deletePacket now e p
    else { s with control := .idle }

end State

/-! ### Runs -/

/-- What may happen to a session. -/
inductive Op
  /-- The socket thread queues a packet with this opcode. -/
  | queuePacket (now opcode : ℕ)
  /-- `Update` is called. -/
  | update (filter : Filter)
  /-- A round of the packet loop: the clock at `MustDiscard`, and the effect of the handler. -/
  | round (now : ℕ) (e : Effect)
  /-- Between two packet loops the client is in another state: it logged in or out, changed its
  map or left the waiting queue. -/
  | client (c : Client)
  /-- The socket is closed. -/
  | close

/-- One step of a session.  A closed socket stays closed. -/
def step (s : State) : Op → State
  | .queuePacket now opcode => s.arrive proto now opcode
  | .update filter =>
    match s.control with
    | .idle => { s with control := .updating filter none true }
    | .updating _ _ _ => s
  | .round now e => s.round proto now e
  | .client c =>
    match s.control with
    | .idle => { s with client := { c with closed := s.client.closed || c.closed } }
    | .updating _ _ _ => s
  | .close => { s with client := { s.client with closed := true } }

end ZerosCore.WorldSession
