/-
# What a client receives is what the server sent

The bytes put on the wire are a prefix of the packets for which `SendPacket`
returned `0`, in the order of the calls, each header encrypted where the one
before it left the cipher; and a client that reads a size of two or three bytes
at each header finds just these packets.

That is so in every run in which

* `SendPacket` does not find the message queue full when the packet has to go
  there: by then the cipher and the compressor have moved on, and a later
  packet would be encrypted at the wrong place;
* a block of the queue that the socket does not take can be put back.  The
  queue counts the sizes of its blocks and may still be at its high water mark
  without the block; `handle_output_queue` looks at the answer of
  `enqueue_head` after a partial `send`, but not after one that would block,
  and goes on without the block.

`Socket.pending` is what is still to be sent; nothing but these two cases comes
between `wire` and `pending` and the stream of the accepted packets.
-/

import ZerosCore.Lib.Run
import ZerosCore.Server.Output

namespace ZerosCore.WorldSocket.Output

open Lib List Output.Socket Block

variable {κ ζ : Type*} (codec : Codec κ ζ)

/-! ### The stream -/

theorem stream_concat (state : κ × ζ) (calls : List Call) (call : Call) :
    stream codec state (calls ++ [call]) = ((stream codec state calls).1 ++
          ((call.frame codec (stream codec state calls).2).1 ++
            (call.frame codec (stream codec state calls).2).2.1.contents),
        (call.frame codec (stream codec state calls).2).2.2) := by
  induction calls generalizing state with
  | nil => simp [stream]
  | cons c calls ih =>
    rw [cons_append, stream, ih, stream]
    simp

theorem framed_concat (state : κ × ζ) (calls : List Call) (call : Call) :
    framed codec state (calls ++ [call]) =
      framed codec state calls ++ [(call.frame codec (stream codec state calls).2).2.1] := by
  induction calls generalizing state with
  | nil => rfl
  | cons c calls ih =>
    rw [cons_append, framed, ih, framed, stream]
    rfl

/-! ### The cipher -/

section Cipher

variable {codec}

theorem cipher_length (f : κ → UInt8 → UInt8 × κ) (k : κ) (bytes : List UInt8) :
    (cipher f k bytes).1.length = bytes.length := by
  induction bytes generalizing k with
  | nil => rfl
  | cons b bytes ih =>
    rw [cipher, length_cons, ih]
    rfl

theorem cipher_take (f : κ → UInt8 → UInt8 × κ) (k : κ) (bytes : List UInt8) (n : ℕ) :
    (cipher f k (bytes.take n)).1 = (cipher f k bytes).1.take n := by
  induction bytes generalizing k n with
  | nil => simp [cipher]
  | cons b bytes ih =>
    cases n with
    | zero => rfl
    | succ n =>
      rw [take_succ_cons, cipher, cipher, take_succ_cons, ih]

/-- **The client's cipher undoes the server's.** -/
theorem decrypt_cipher (k : κ) (bytes : List UInt8) :
    cipher codec.decrypt k (cipher codec.encrypt k bytes).1 =
      (bytes, (cipher codec.encrypt k bytes).2) := by
  induction bytes generalizing k with
  | nil => rfl
  | cons b bytes ih =>
    rw [cipher, cipher, codec.decrypt_encrypt, ih]

end Cipher

/-! ### The header -/

theorem serverPktHeader_length (size cmd : ℕ) :
    (serverPktHeader size cmd).length = if isLargePacket size then 5 else 4 := by
  unfold serverPktHeader
  split_ifs <;> rfl

theorem toNat_ofNat_mod (n : ℕ) : (UInt8.ofNat (n % 2 ^ 8)).toNat = n % 2 ^ 8 := by
  rw [UInt8.toNat_ofNat']
  exact Nat.mod_mod _ _

variable {size : ℕ}

theorem toNat_top (h : size < 2 ^ 23) :
    (UInt8.ofNat (0x80 ||| (size / 2 ^ 16 % 2 ^ 8))).toNat = 0x80 + size / 2 ^ 16 := by
  have hlt : size / 2 ^ 16 < 2 ^ 7 := by omega
  have hmod : size / 2 ^ 16 % 2 ^ 8 = size / 2 ^ 16 := Nat.mod_eq_of_lt (by omega)
  have hor : 0x80 ||| size / 2 ^ 16 = 0x80 + size / 2 ^ 16 :=
    (Nat.two_pow_add_eq_or_of_lt hlt 1).symm
  rw [hmod, hor, UInt8.toNat_ofNat']
  exact Nat.mod_eq_of_lt (by omega)

/-- **The size of a header can be read back**, and its first bit tells how long it is. -/
theorem readHeader_serverPktHeader (cmd : ℕ) (h : size < 2 ^ 23) :
    readHeader (serverPktHeader size cmd) = (size, cmd % 2 ^ 16) ∧
      (0x80 ≤ ((serverPktHeader size cmd).headD 0).toNat ↔ isLargePacket size = true) := by
  have hcmd : cmd % 2 ^ 8 + cmd / 2 ^ 8 % 2 ^ 8 * 2 ^ 8 = cmd % 2 ^ 16 := by omega
  unfold serverPktHeader
  dsimp only
  cases hlarge : isLargePacket size with
  | true =>
    have hsize : size / 2 ^ 16 * 2 ^ 16 + size / 2 ^ 8 % 2 ^ 8 * 2 ^ 8 + size % 2 ^ 8 = size := by
      omega
    have htop := toNat_top h
    refine ⟨?_, iff_of_true ?_ rfl⟩
    · show readHeader [_, _, _, _, _] = _
      rw [readHeader, htop, toNat_ofNat_mod, toNat_ofNat_mod, toNat_ofNat_mod, toNat_ofNat_mod,
        Nat.add_sub_cancel_left, hsize, hcmd]
    show 0x80 ≤ (UInt8.ofNat _).toNat
    rw [htop]
    exact Nat.le_add_right _ _
  | false =>
    have hsmall : size ≤ 0x7FFF := by simpa [isLargePacket] using hlarge
    have hsize : size / 2 ^ 8 % 2 ^ 8 * 2 ^ 8 + size % 2 ^ 8 = size := by omega
    refine ⟨?_, iff_of_false ?_ Bool.false_ne_true⟩
    · show readHeader [_, _, _, _] = _
      rw [readHeader, toNat_ofNat_mod, toNat_ofNat_mod, toNat_ofNat_mod, toNat_ofNat_mod, hsize,
        hcmd]
    show ¬ 0x80 ≤ (UInt8.ofNat _).toNat
    rw [toNat_ofNat_mod]
    omega

/-! ### The client -/

section Client

variable {codec}

theorem clientRead_frame (k : κ) (cmd : ℕ) (h : size < 2 ^ 23) (rest : List UInt8) :
    clientRead codec k ((cipher codec.encrypt k (serverPktHeader size cmd)).1 ++ rest) =
      if rest.length < size - 2 then [] else ⟨cmd % 2 ^ 16, rest.take (size - 2)⟩ ::
        clientRead codec (cipher codec.encrypt k (serverPktHeader size cmd)).2
          (rest.drop (size - 2)) := by
  obtain ⟨hread, hfirst⟩ := readHeader_serverPktHeader cmd h
  have hlen := cipher_length codec.encrypt k (serverPktHeader size cmd)
  have hpos : 1 ≤ (serverPktHeader size cmd).length := by
    rw [serverPktHeader_length]
    split_ifs <;> omega
  have hn : headerLength codec k ((cipher codec.encrypt k (serverPktHeader size cmd)).1 ++ rest) =
      (serverPktHeader size cmd).length := by
    have hhead : (cipher codec.decrypt k
        (((cipher codec.encrypt k (serverPktHeader size cmd)).1 ++ rest).take 1)).1.headD 0 =
        (serverPktHeader size cmd).headD 0 := by
      rw [take_append_of_le_length (by omega), cipher_take, decrypt_cipher]
      cases serverPktHeader size cmd with
      | nil => rfl
      | cons b bytes => rfl
    unfold headerLength
    rw [hhead, serverPktHeader_length]
    exact if_congr hfirst rfl rfl
  rw [clientRead]
  dsimp only
  rw [hn, dif_neg (by rw [length_append]; omega), take_left' hlen, drop_left' hlen,
    decrypt_cipher, hread]

/-- **The client finds the packets of the stream.** -/
theorem clientRead_stream (calls : List Call) : ∀ state : κ × ζ,
      (∀ p ∈ framed codec state calls, p.contents.length + 2 < 2 ^ 23) →
      clientRead codec state.1 (stream codec state calls).1 =
        (framed codec state calls).map fun p => { p with opcode := p.opcode % 2 ^ 16 } := by
  induction calls with
  | nil =>
    intro state _
    show clientRead codec state.1 [] = []
    rw [clientRead]
    exact dif_pos (by unfold headerLength; split_ifs <;> decide)
  | cons call calls ih =>
    intro state hsizes
    rw [framed] at hsizes
    have hrest := ih _ fun p hp => hsizes p (mem_cons_of_mem _ hp)
    have hsize := hsizes _ mem_cons_self
    rw [stream, framed, map_cons, ← hrest]
    dsimp only
    have hframe : clientRead codec state.1 ((call.frame codec state).1 ++ _) = _ :=
      clientRead_frame state.1 (call.pack codec state.2).1.opcode hsize
      ((call.frame codec state).2.1.contents ++ (stream codec (call.frame codec state).2.2 calls).1)
    have hlong : ¬ ((call.frame codec state).2.1.contents ++
        (stream codec (call.frame codec state).2.2 calls).1).length <
        (call.frame codec state).2.1.contents.length + 2 - 2 := by
      rw [length_append]
      omega
    rw [if_neg hlong, Nat.add_sub_cancel, take_left, drop_left] at hframe
    exact hframe

theorem clientRead_append (k : κ) (as bs : List UInt8) :
    clientRead codec k as <+: clientRead codec k (as ++ bs) := by
  rw [clientRead, clientRead]
  dsimp only
  by_cases hshort : as.length < headerLength codec k as
  · rw [dif_pos hshort]
    exact nil_prefix
  have hpos : 0 < headerLength codec k as := by
    unfold headerLength
    split_ifs <;> omega
  have hn : headerLength codec k (as ++ bs) = headerLength codec k as := by
    unfold headerLength
    rw [take_append_of_le_length (by omega)]
  have hlong : ¬ (as ++ bs).length < headerLength codec k (as ++ bs) := by
    rw [hn, length_append]
    omega
  rw [dif_neg hshort, dif_neg hlong, hn, take_append_of_le_length (by omega),
    drop_append_of_le_length (by omega)]
  split_ifs with hpart hwhole hwhole
  · exact nil_prefix
  · exact nil_prefix
  · rw [length_append] at hwhole
    exact (hpart (by omega)).elim
  rw [take_append_of_le_length (by omega), drop_append_of_le_length (by omega)]
  exact prefix_cons_inj _ |>.mpr (clientRead_append _ _ bs)
termination_by as.length
decreasing_by
  simp only [List.length_drop]
  omega

end Client

/-! ### What is asked of a run -/

/-- What is still to be sent. -/
def Socket.pending (s : Socket κ ζ) : List UInt8 :=
  s.outBuffer.contents ++ s.queue.flatMap Block.contents

/-- The packet goes into the buffer. -/
def Socket.fits (s : Socket κ ζ) (call : Call) : Prop :=
  (call.frame codec s.state).2.1.contents.length + (call.frame codec s.state).1.length ≤
    s.outBuffer.space ∧ s.queue = []

instance (s : Socket κ ζ) (call : Call) : Decidable (s.fits codec call) := by
  unfold Socket.fits
  infer_instance

/-- What `send` answers for the first block of the queue, if `handle_output` gets there. -/
def Socket.queueAnswer (s : Socket κ ζ) (answer next : Send) : Option Send :=
  if s.outBuffer.length = 0 then some answer
  else
    match answer with
    | .bytes n => if s.outBuffer.length ≤ n then some next else none
    | _ => none

/-- A block that the socket does not take can be put back. -/
def MeetsOutput (s : Socket κ ζ) (answer next : Send) : Prop :=
  s.closing = false → s.queueAnswer answer next = some .wouldBlock → isFull s.queue.tail = false

/-- The same in the loop of `Update`. -/
def MeetsLoop : List (Send × Send) → Socket κ ζ → Prop
  | [], _ => True
  | (answer, next) :: answers, s =>
    MeetsOutput s answer next ∧
      ((s.handleOutput answer next).2 = .again → MeetsLoop answers (s.handleOutput answer next).1)

/-- **What a step is asked to do**, see the head of the file. -/
def Meets (s : Socket κ ζ) : Op → Prop
  | .sendPacket call =>
    s.closing = true ∨ (call.frame codec s.state).2.1.contents.length + 2 < 2 ^ 23 ∧
        (s.fits codec call ∨ isFull s.queue = false)
  | .handleOutput answer next => MeetsOutput s answer next
  | .update answers => MeetsLoop answers s
  | .close => True

/-- **What the connection promises**: no assertion failed, the wire carries a prefix of the
accepted packets, in order, and the client finds the packets at their boundaries: all of them in
the whole stream, and the first of them in what it has so far. -/
structure Sound (state : κ × ζ) (s : Socket κ ζ) : Prop where
  asserted : s.asserted = false
  wire : s.wire <+: (stream codec state s.accepted).1
  boundaries : clientRead codec state.1 (stream codec state s.accepted).1 =
    (framed codec state s.accepted).map fun p => { p with opcode := p.opcode % 2 ^ 16 }
  received : clientRead codec state.1 s.wire <+:
    (framed codec state s.accepted).map fun p => { p with opcode := p.opcode % 2 ^ 16 }

/-- The invariant: while the connection is open, nothing of the stream is missing. -/
structure Inv (state : κ × ζ) (s : Socket κ ζ) : Prop where
  asserted : s.asserted = false
  wire : s.wire <+: (stream codec state s.accepted).1
  whole : s.closing = false → s.wire ++ s.pending = (stream codec state s.accepted).1 ∧
      s.state = (stream codec state s.accepted).2
  sizes : ∀ p ∈ framed codec state s.accepted, p.contents.length + 2 < 2 ^ 23

variable {codec} {state : κ × ζ} {s : Socket κ ζ}

theorem Inv.sound (h : Inv codec state s) : Sound codec state s := by
  have hread := clientRead_stream s.accepted state h.sizes
  refine ⟨h.asserted, h.wire, hread, ?_⟩
  obtain ⟨rest, hrest⟩ := h.wire
  rw [← hread, ← hrest]
  exact clientRead_append _ _ _

/-! ### `SendPacket` -/

theorem exists_copy_copy (b : Block UInt8) (as bs : List UInt8)
    (h : bs.length + as.length ≤ b.space) : ∃ b', ((b.copy as).bind fun b => b.copy bs) = some b' ∧
      b'.contents = b.contents ++ (as ++ bs) ∧ b'.size = b.size := by
  obtain ⟨b1, hcopy, hcontents, hsize, -, hspace⟩ := b.exists_copy as (by omega)
  obtain ⟨b2, hcopy', hcontents', hsize', -, -⟩ := b1.exists_copy bs (by omega)
  refine ⟨b2, ?_, ?_, hsize'.trans hsize⟩
  · rw [hcopy]
    exact hcopy'
  · rw [hcontents', hcontents, append_assoc]

theorem exists_newBlock (header contents : List UInt8) :
    ∃ mb, newBlock header contents = some mb ∧ mb.contents = header ++ contents ∧
      mb.size = contents.length + header.length := by
  obtain ⟨mb, hmb, hcontents, hsize⟩ := exists_copy_copy
    (.ofBase (replicate (contents.length + header.length) 0)) header contents (by simp)
  refine ⟨mb, hmb, hcontents, ?_⟩
  rw [hsize]
  exact length_replicate

variable {call : Call}

/-- **A packet that finds room** goes to the end of what is pending. -/
theorem sendPacket_stored (hopen : s.closing = false)
    (hroom : s.fits codec call ∨ isFull s.queue = false) :
    ∃ outBuffer queue, s.sendPacket codec call = ({ s with
        state := (call.frame codec s.state).2.2, outBuffer, queue
        accepted := s.accepted ++ [call] }, true) ∧ outBuffer.contents ++ queue.flatMap contents =
        s.pending ++ ((call.frame codec s.state).1 ++ (call.frame codec s.state).2.1.contents) ∧
      (¬ s.fits codec call → outBuffer = s.outBuffer ∧ ∃ mb, queue = s.queue ++ [mb] ∧
        mb.contents = (call.frame codec s.state).1 ++ (call.frame codec s.state).2.1.contents ∧
        mb.size = (call.frame codec s.state).2.1.contents.length +
          (call.frame codec s.state).1.length) := by
  unfold sendPacket
  rw [if_neg (by rw [hopen]; exact Bool.false_ne_true)]
  dsimp only
  by_cases hfits : s.fits codec call
  · obtain ⟨hspace, hqueue⟩ := hfits
    obtain ⟨outBuffer, hcopy, hcontents, -⟩ := exists_copy_copy s.outBuffer _ _ hspace
    rw [if_pos ⟨hspace, hqueue⟩, hcopy]
    refine ⟨outBuffer, s.queue, rfl, ?_, fun hnot => (hnot ⟨hspace, hqueue⟩).elim⟩
    unfold pending
    rw [hcontents, hqueue]
    simp
  obtain ⟨mb, hmb, hcontents, hsize⟩ := exists_newBlock (call.frame codec s.state).1
    (call.frame codec s.state).2.1.contents
  have hfull : isFull s.queue = false := hroom.resolve_left hfits
  rw [if_neg (show ¬ (_ ∧ _) from hfits), hmb]
  dsimp only
  rw [hfull]
  refine ⟨s.outBuffer, s.queue ++ [mb], rfl, ?_, fun _ => ⟨rfl, mb, rfl, hcontents, hsize⟩⟩
  unfold pending
  rw [flatMap_append, flatMap_singleton, hcontents, append_assoc]

theorem Inv.sendPacket (h : Inv codec state s)
    (hmeets : Meets codec s (.sendPacket call)) : Inv codec state (s.sendPacket codec call).1 := by
  rcases hmeets with hclosing | ⟨hsize, hroom⟩
  · unfold Socket.sendPacket
    rw [if_pos hclosing]
    exact h
  cases hclosing : s.closing with
  | true =>
    unfold Socket.sendPacket
    rw [if_pos hclosing]
    exact h
  | false =>
    obtain ⟨outBuffer, queue, heq, hpending, -⟩ := sendPacket_stored hclosing hroom
    obtain ⟨hwhole, hstate⟩ := h.whole hclosing
    rw [heq]
    have hstream : s.wire ++ (outBuffer.contents ++ queue.flatMap contents) =
        (stream codec state (s.accepted ++ [call])).1 := by
      rw [stream_concat, hpending, ← hwhole, ← hstate, append_assoc]
    refine ⟨h.asserted, ?_, fun _ => ⟨hstream, ?_⟩, ?_⟩
    · exact ⟨_, hstream⟩
    · show (call.frame codec s.state).2.2 = _
      rw [stream_concat, hstate]
    intro p hp
    dsimp only at hp
    rw [framed_concat] at hp
    rcases mem_append.mp hp with hp | hp
    · exact h.sizes p hp
    rw [mem_singleton.mp hp, ← hstate]
    exact hsize

/-! ### `handle_output` -/

/-- What sending does: bytes move from the front of what is pending to the wire, and nothing else
is lost unless the connection fails. -/
structure Sends (s : Socket κ ζ) (out : Socket κ ζ × Return) : Prop where
  asserted : out.1.asserted = s.asserted
  accepted : out.1.accepted = s.accepted
  state : out.1.state = s.state
  closing : out.1.closing = s.closing
  wire : out.1.wire <+: s.wire ++ s.pending
  whole : out.2 ≠ .failed → out.1.wire ++ out.1.pending = s.wire ++ s.pending

theorem Sends.none {outActive : Bool} {ret : Return} : Sends s ({ s with outActive }, ret) :=
  ⟨rfl, rfl, rfl, rfl, prefix_append _ _, fun _ => rfl⟩

variable {answer : Send}

/-- **`handle_output_queue`** sends from the first block, and puts the rest of it back. -/
theorem Sends.queue (hbuffer : s.outBuffer.length = 0)
    (hmeets : answer = .wouldBlock → isFull s.queue.tail = false) :
    Sends s (s.handleOutputQueue answer) := by
  have hempty : s.outBuffer.contents = [] := by
    rw [← length_eq_zero_iff, length_contents, hbuffer]
  unfold handleOutputQueue
  split
  · exact Sends.none
  next mblk queue hqueue =>
    have hpending : s.pending = mblk.contents ++ queue.flatMap contents := by
      rw [pending, hempty, hqueue, nil_append, flatMap_cons]
    rw [hqueue, tail_cons] at hmeets
    cases answer with
    | error => exact ⟨rfl, rfl, rfl, rfl, prefix_append _ _, fun hret => (hret rfl).elim⟩
    | wouldBlock =>
      refine ⟨rfl, rfl, rfl, rfl, prefix_append _ _, fun _ => ?_⟩
      dsimp only
      rw [hmeets rfl, hpending]
      show s.wire ++ (s.outBuffer.contents ++ _) = _
      rw [hempty]
      rfl
    | bytes n =>
      obtain ⟨m, hm⟩ : ∃ m, m = min n mblk.length := ⟨_, rfl⟩
      have hwire : s.wire ++ mblk.contents.take m <+: s.wire ++ s.pending := by
        rw [hpending, prefix_append_right_inj]
        exact ( take_prefix _ _).trans (prefix_append _ _)
      dsimp only
      rw [← hm]
      split
      · exact ⟨rfl, rfl, rfl, rfl, hwire, fun hret => (hret rfl).elim⟩
      split
      · next hpart =>
          obtain ⟨mblk', hadvance, hcontents, -⟩ := mblk.exists_advance (Nat.le_of_lt hpart)
          rw [hadvance]
          dsimp only
          split_ifs with hfull
          · exact ⟨rfl, rfl, rfl, rfl, hwire, fun hret => (hret rfl).elim⟩
          refine ⟨rfl, rfl, rfl, rfl, hwire, fun _ => ?_⟩
          show s.wire ++ mblk.contents.take m ++ (s.outBuffer.contents ++ _) = _
          rw [hempty, nil_append, flatMap_cons, hcontents, hpending,
            append_assoc, ← append_assoc (mblk.contents.take m),
            take_append_drop]
      next hpart =>
        have hall : mblk.contents.take m = mblk.contents :=
          take_of_length_le (by rw [length_contents]; omega)
        have hwhole : s.wire ++ mblk.contents.take m ++
            (s.outBuffer.contents ++ queue.flatMap contents) = s.wire ++ s.pending := by
          rw [hempty, nil_append, hall, hpending, append_assoc]
        split_ifs with hlast <;> exact ⟨rfl, rfl, rfl, rfl, hwire, fun _ => hwhole⟩

/-- **`handle_output`** sends from the buffer, and from the queue when the buffer is empty. -/
theorem Sends.send {next : Send}
    (hmeets : s.queueAnswer answer next = some .wouldBlock → isFull s.queue.tail = false) :
    Sends s (s.send answer next) := by
  unfold Socket.queueAnswer at hmeets
  unfold Socket.send
  dsimp only
  split_ifs with hbuffer
  · rw [if_pos hbuffer] at hmeets
    exact Sends.queue hbuffer fun heq => hmeets (congrArg some heq)
  rw [if_neg hbuffer] at hmeets
  cases answer with
  | error => exact ⟨rfl, rfl, rfl, rfl, prefix_append _ _, fun hret => (hret rfl).elim⟩
  | wouldBlock => exact Sends.none
  | bytes n =>
    obtain ⟨m, hm⟩ : ∃ m, m = min n s.outBuffer.length := ⟨_, rfl⟩
    have hwire : s.wire ++ s.outBuffer.contents.take m <+: s.wire ++ s.pending := by
      rw [prefix_append_right_inj]
      exact ( take_prefix _ _).trans (prefix_append _ _)
    dsimp only at hmeets ⊢
    rw [← hm]
    split_ifs with hzero hpart
    · exact ⟨rfl, rfl, rfl, rfl, hwire, fun hret => (hret rfl).elim⟩
    · obtain ⟨outBuffer, hadvance, hcontents, -⟩ :=
        s.outBuffer.exists_advance (Nat.le_of_lt hpart)
      rw [hadvance]
      refine ⟨rfl, rfl, rfl, rfl, hwire, fun _ => ?_⟩
      show s.wire ++ s.outBuffer.contents.take m ++ (outBuffer.crunch.contents ++ _) = _
      rw [contents_crunch, hcontents, append_assoc, ← append_assoc (List.take _ _),
        take_append_drop]
      rfl
    -- the buffer is sent, the queue follows
    have hall : s.outBuffer.contents.take m = s.outBuffer.contents :=
      take_of_length_le (by rw [length_contents]; omega)
    obtain ⟨s1, hs1⟩ : ∃ s1 : Socket κ ζ, s1 = { s with
          wire := s.wire ++ s.outBuffer.contents.take m
          outBuffer := s.outBuffer.reset } := ⟨_, rfl⟩
    have hsame : s1.wire ++ s1.pending = s.wire ++ s.pending := by
      rw [hs1]
      show s.wire ++ s.outBuffer.contents.take m ++ (s.outBuffer.reset.contents ++ _) = _
      rw [hall, contents_reset, nil_append, append_assoc]
      rfl
    rw [if_pos (by omega)] at hmeets
    have hqueue : Sends s1 (s1.handleOutputQueue next) :=
      Sends.queue (by rw [hs1]; rfl) fun heq => by
        rw [hs1]
        exact hmeets (congrArg some heq)
    rw [← hs1]
    refine ⟨?_, ?_, ?_, ?_, ?_, fun hret => ?_⟩
    · rw [hqueue.asserted, hs1]
    · rw [hqueue.accepted, hs1]
    · rw [hqueue.state, hs1]
    · rw [hqueue.closing, hs1]
    · rw [← hsame]
      exact hqueue.wire
    rw [← hsame]
    exact hqueue.whole hret

theorem Inv.handleOutput (h : Inv codec state s) {next : Send}
    (hmeets : MeetsOutput s answer next) : Inv codec state (s.handleOutput answer next).1 := by
  unfold Socket.handleOutput
  split_ifs with hclosing
  · exact h
  have hopen : s.closing = false := Bool.eq_false_iff.mpr hclosing
  obtain ⟨hwhole, hstate⟩ := h.whole hopen
  have hsends := Sends.send (hmeets hopen)
  obtain ⟨⟨s', ret⟩, hout⟩ : ∃ out, out = s.send answer next := ⟨_, rfl⟩
  rw [← hout] at hsends ⊢
  have hwire : s'.wire <+: (stream codec state s'.accepted).1 := by
    rw [hsends.accepted, ← hwhole]
    exact hsends.wire
  have hsizes : ∀ p ∈ framed codec state s'.accepted, p.contents.length + 2 < 2 ^ 23 := by
    rw [hsends.accepted]
    exact h.sizes
  have hassert : s'.asserted = false := hsends.asserted.trans h.asserted
  have hgood : ret ≠ .failed → Inv codec state s' := by
    refine fun hret => ⟨hassert, hwire, fun _ => ⟨?_, ?_⟩, hsizes⟩
    · rw [hsends.whole hret, hwhole, hsends.accepted]
    · rw [hsends.state, hstate, hsends.accepted]
  cases ret with
  | failed => exact ⟨hassert, hwire, nofun, hsizes⟩
  | done | again => exact hgood (by decide)

theorem Inv.updateLoop (answers : List (Send × Send)) :
    ∀ s : Socket κ ζ, Inv codec state s → MeetsLoop answers s →
      Inv codec state (updateLoop answers s) := by
  induction answers with
  | nil => exact fun s h _ => h
  | cons a answers ih =>
    obtain ⟨answer, next⟩ := a
    rintro s h ⟨hmeets, hloop⟩
    have hone := h.handleOutput hmeets
    unfold Socket.updateLoop
    dsimp only
    split
    · next hret => exact ih _ hone (hloop hret)
    · exact hone

/-- **Every call** that meets its condition keeps the stream. -/
theorem Inv.step (h : Inv codec state s) {op : Op} (hmeets : Meets codec s op) :
    Inv codec state (Output.step codec s op) := by
  cases op with
  | sendPacket call => exact h.sendPacket hmeets
  | handleOutput answer next => exact h.handleOutput hmeets
  | update answers =>
    show Inv codec state (s.update answers)
    unfold update
    split_ifs
    · exact h
    · exact h
    · exact Inv.updateLoop answers s h hmeets
  | close => exact { h with whole := fun hc => (by cases hc) }

theorem inv_start (outBufferSize : ℕ) (state : κ × ζ) :
    Inv codec state (start outBufferSize state) :=
  ⟨rfl, nil_prefix, fun _ => ⟨rfl, rfl⟩, nofun⟩

/-- **What is on the wire is what was sent.**  In every run whose steps meet their condition,
after every step the wire carries a prefix of the accepted packets, framed and encrypted in
order, and the client finds the packets at their boundaries. -/
theorem wire_along (codec : Codec κ ζ) (outBufferSize : ℕ) (state : κ × ζ) (ops : List Op)
    (hops : Along (step codec) (Meets codec) (start outBufferSize state) ops) :
    Along (step codec) (fun s _ => Sound codec state s) (start outBufferSize state) ops ∧
      Sound codec state (ops.foldl (step codec) (start outBufferSize state)) := by
  have hstep : ∀ s op, Inv codec state s → Meets codec s op → Inv codec state (step codec s op) :=
    fun s op h hmeets => h.step hmeets
  exact ⟨Along.of_invariant hstep (fun s _ h _ => h.sound) (inv_start outBufferSize state) hops,
    (Along.invariant_foldl hstep (inv_start outBufferSize state) hops).sound⟩

/-! ### A run, and a block that cannot be put back -/

/-- A stream cipher that adds a running key to every byte, and no compression. -/
def xorCodec : Codec UInt8 Unit where
  encrypt k b := (b ^^^ k, k + 1)
  decrypt k b := (b ^^^ k, k + 1)
  decrypt_encrypt k b := by rw [UInt8.xor_assoc, UInt8.xor_self, UInt8.xor_zero]
  compress z p := (p, z)

theorem meetsOutput_bytes (s : Socket κ ζ) (n m : ℕ) : MeetsOutput s (.bytes n) (.bytes m) := by
  intro _ hanswer
  unfold queueAnswer at hanswer
  dsimp only at hanswer
  split_ifs at hanswer <;> cases hanswer

/-- A packet is queued and sent in two parts. -/
def twoParts : List Op :=
  [.sendPacket ⟨true, ⟨0x1234, [1, 2, 3]⟩⟩, .handleOutput (.bytes 3) (.bytes 0),
    .handleOutput (.bytes 9) (.bytes 0)]

theorem wire_along_twoParts : Along (step xorCodec) (Meets xorCodec) (start 65536 (7, ())) twoParts ∧
      Sound xorCodec (7, ()) (twoParts.foldl (step xorCodec) (start 65536 (7, ()))) := by
  have hops : Along (step xorCodec) (Meets xorCodec) (start 65536 (7, ())) twoParts :=
    ⟨.inr ⟨by decide, .inr (by decide)⟩, meetsOutput_bytes _ _ _, meetsOutput_bytes _ _ _, trivial⟩
  exact ⟨hops, (wire_along xorCodec 65536 (7, ()) twoParts hops).2⟩

/-- A packet of `n` zeros, sent before there is a session. -/
def zeros (n : ℕ) : Call := ⟨false, ⟨0x1234, List.replicate n 0⟩⟩

theorem frame_zeros (n : ℕ) (state : UInt8 × Unit) : (zeros n).frame xorCodec state =
      ((cipher xorCodec.encrypt state.1 (serverPktHeader (n + 2) 0x1234)).1,
        ⟨0x1234, replicate n 0⟩,
        (cipher xorCodec.encrypt state.1 (serverPktHeader (n + 2) 0x1234)).2, state.2) := by
  simp [Call.frame, Call.pack, zeros]

/-- Two packets that do not fit into the buffer, the second one as large as a packet may be; a
`send` that would block, and one that takes everything. -/
def lostBlock : List Op :=
  [.sendPacket (zeros 65532), .sendPacket (zeros 8388605), .handleOutput .wouldBlock .error,
    .handleOutput (.bytes 8388610) .error]

theorem sendPacket_zeros {s : Socket UInt8 Unit} {n : ℕ} (hopen : s.closing = false)
    (hspace : s.outBuffer.space < n + (serverPktHeader (n + 2) 0x1234).length)
    (hfull : isFull s.queue = false) : ∃ mb, step xorCodec s (.sendPacket (zeros n)) = { s with
          state := ((zeros n).frame xorCodec s.state).2.2, queue := s.queue ++ [mb]
          accepted := s.accepted ++ [zeros n] } ∧
      mb.contents = (cipher xorCodec.encrypt s.state.1 (serverPktHeader (n + 2) 0x1234)).1 ++
        replicate n 0 ∧ mb.size = n + (serverPktHeader (n + 2) 0x1234).length := by
  have hfits : ¬ s.fits xorCodec (zeros n) := by
    rintro ⟨hle, -⟩
    rw [frame_zeros] at hle
    dsimp only at hle
    rw [length_replicate, cipher_length] at hle
    omega
  obtain ⟨outBuffer, queue, heq, -, hnot⟩ := sendPacket_stored hopen (.inr hfull)
  obtain ⟨rfl, mb, rfl, hcontents, hsize⟩ := hnot hfits
  refine ⟨mb, congrArg Prod.fst heq, ?_, ?_⟩
  · rw [hcontents, frame_zeros]
  rw [hsize, frame_zeros]
  dsimp only
  rw [length_replicate, cipher_length]

/-- **A block is lost and the connection goes on.**  The first `handle_output` takes the first
packet out of the queue, the socket is not ready, and the queue, still at its high water mark,
does not take the packet back.  The second one sends the second packet: the client reads a header
that does not follow the last one. -/
theorem queued_packet_lost :
    ¬ Sound xorCodec (0, ()) (lostBlock.foldl (step xorCodec) (start 65536 (0, ()))) := by
  obtain ⟨s0, hs0⟩ : ∃ s0, s0 = start 65536 ((0, ()) : UInt8 × Unit) := ⟨_, rfl⟩
  have hspace : s0.outBuffer.space = 65536 := by
    rw [hs0]
    exact (space_ofBase _).trans length_replicate
  have hbuffer : s0.outBuffer.length = 0 := by rw [hs0]; rfl
  -- both packets are queued
  obtain ⟨mb0, heq0, -, hsize0⟩ := sendPacket_zeros (s := s0) (n := 65532) (by rw [hs0]; rfl)
    (by rw [hspace, serverPktHeader_length]; decide) (by rw [hs0]; rfl)
  obtain ⟨s1, hs1⟩ : ∃ s1, s1 = step xorCodec s0 (.sendPacket (zeros 65532)) := ⟨_, rfl⟩
  rw [← hs1] at heq0
  have hqueue1 : s1.queue = [mb0] := by rw [heq0, hs0]; rfl
  obtain ⟨mb1, heq1, hcontents1, hsize1⟩ := sendPacket_zeros (s := s1) (n := 8388605)
    (by rw [heq0, hs0]; rfl) (by rw [heq0, hspace, serverPktHeader_length]; decide)
    (by rw [hqueue1, isFull, map_singleton, sum_singleton, hsize0, serverPktHeader_length]
        decide)
  obtain ⟨s2, hs2⟩ : ∃ s2, s2 = step xorCodec s1 (.sendPacket (zeros 8388605)) := ⟨_, rfl⟩
  rw [← hs2, hqueue1] at heq1
  have hfull : isFull [mb1] = true := by
    rw [isFull, map_singleton, sum_singleton, hsize1, serverPktHeader_length]
    decide
  have hbuffer2 : s2.outBuffer.length = 0 := by rw [heq1, heq0]; exact hbuffer
  have hopen2 : s2.closing = false := by rw [heq1, heq0, hs0]; rfl
  have hqueue2 : s2.queue = [mb0, mb1] := by rw [heq1]; rfl
  -- the first block is not put back
  have hblock : step xorCodec s2 (.handleOutput .wouldBlock .error) =
      { s2 with queue := [mb1], outActive := true } := by
    show (s2.handleOutput .wouldBlock .error).1 = _
    unfold handleOutput send handleOutputQueue
    rw [if_neg (by rw [hopen2]; decide), if_pos hbuffer2, hqueue2]
    dsimp only
    rw [hfull]
    rfl
  -- the second one is sent whole
  have hlen1 : mb1.length = 8388610 := by
    rw [← length_contents, hcontents1, length_append, cipher_length,
      length_replicate, serverPktHeader_length]
    decide
  have hsent : step xorCodec { s2 with queue := [mb1], outActive := true }
      (.handleOutput (.bytes 8388610) .error) =
      { s2 with queue := [], outActive := false, wire := s2.wire ++ mb1.contents } := by
    show (handleOutput { s2 with queue := [mb1], outActive := true } (.bytes 8388610) .error).1 = _
    unfold handleOutput send handleOutputQueue
    dsimp only
    rw [if_neg (by rw [hopen2]; decide), if_pos hbuffer2, hlen1, Nat.min_self,
      if_neg (by decide), if_neg (Nat.lt_irrefl _), if_pos rfl,
      take_of_length_le (by rw [length_contents, hlen1])]
  have hrun : lostBlock.foldl (step xorCodec) (start 65536 (0, ())) =
      { s2 with queue := [], outActive := false, wire := s2.wire ++ mb1.contents } := by
    unfold lostBlock
    rw [← hs0, foldl_cons, ← hs1, foldl_cons, ← hs2, foldl_cons, hblock, foldl_cons, hsent]
    rfl
  have haccepted : s2.accepted = [zeros 65532, zeros 8388605] := by rw [heq1, heq0, hs0]; rfl
  have hwire : s2.wire = [] := by rw [heq1, heq0, hs0]; rfl
  -- the first bytes of the two packets differ
  have hfirst : cipher xorCodec.encrypt 0 (serverPktHeader (65532 + 2) 0x1234) =
      ([0x80, 0xFE, 0xFC, 0x37, 0x16], 5) := by decide
  have hsecond : (cipher xorCodec.encrypt 5 (serverPktHeader (8388605 + 2) 0x1234)).1 =
      [0xFA, 0xF9, 0xF8, 0x3C, 0x1B] := by decide
  have hstate : s1.state.1 = 5 := by
    rw [heq0, hs0, frame_zeros]
    exact congrArg Prod.snd hfirst
  intro hsound
  obtain ⟨rest, hrest⟩ := hsound.wire
  rw [hrun] at hrest
  dsimp only at hrest
  rw [haccepted, hwire, hcontents1, hstate, hsecond, stream, frame_zeros, hfirst] at hrest
  have hhead : some (0xFA : UInt8) = some 0x80 := congrArg head? hrest
  exact absurd hhead (by decide)

end ZerosCore.WorldSocket.Output
