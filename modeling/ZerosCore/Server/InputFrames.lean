/-
# The packets of a client do not depend on how its stream is cut

`handle_input_missing_data` hands the packets of the stream to
`ProcessIncoming` in order and rejects the connection where the stream is
malformed, whatever pieces `recv` returns, and no `ACE_ASSERT` on the way fails.

`Socket.meaning` reads the state of a socket as a stream: what it has handed
over, followed by what `parse` makes of the bytes it holds and of those still
to come.  A piece of the stream may move through the three buffers in many
ways, but it never changes that reading; when the loop waits for more bytes,
the buffers hold less than one header or less than one payload
(`HeaderPhase`, `PayloadPhase`), so that `parse` finds nothing more in them.
-/

import ZerosCore.Server.Input

namespace ZerosCore.WorldSocket

open Lib List Socket ClientPktHeader

variable {σ : Type*} (peer : Peer σ)

/-! ### The parts of `parse` -/

/-- The rest of a stream behind a header. -/
def afterHeader (env : σ) (pos opcode size : ℕ) (payload : List UInt8) : Parsed :=
  if payload.length < size then ⟨[], none⟩
  else
    let packet : Packet := (opcode, payload.take size)
    let ret := peer.processIncoming env packet
    if ret.1 then
      let rest := parse peer ret.2 (pos + size) (payload.drop size)
      ⟨packet :: rest.packets, rest.rejected⟩
    else ⟨[packet], some (pos + size)⟩

theorem parse_of_short {env : σ} {pos : ℕ} {stream : List UInt8} (h : stream.length < headerSize) :
    parse peer env pos stream = ⟨[], none⟩ := by
  rw [parse]
  exact dif_pos h

theorem parse_of_header (env : σ) (pos : ℕ) {header : List UInt8} (rest : List UInt8)
    (hheader : header.length = headerSize) :
    parse peer env pos (header ++ rest) =
      let plain := peer.decryptRecv env header
      if (ofBytes plain.1).malformed then ⟨[], some (pos + headerSize)⟩
      else afterHeader peer plain.2 (pos + headerSize) ((ofBytes plain.1).cmd % 2 ^ 16)
        ((ofBytes plain.1).size - 4) rest := by
  have hlen : ¬ (header ++ rest).length < headerSize := by
    rw [length_append]
    omega
  rw [parse, dif_neg hlen, take_left' hheader, drop_left' hheader]
  rfl

/-! ### What a socket stands for -/

/-- The packets handed over so far, and the meaning of the bytes held and of those to come. -/
def Socket.meaning (s : Socket σ) (rest : List UInt8) : Parsed :=
  let ahead :=
    match s.recvWPct with
    | none => parse peer s.env (s.taken - s.header.length) (s.header.contents ++ rest)
    | some opcode =>
      afterHeader peer s.env (s.taken - s.recvPct.length) opcode s.recvPct.size
        (s.recvPct.contents ++ rest)
  ⟨s.handed ++ ahead.packets, ahead.rejected⟩

/-- The socket is inside a header. -/
structure HeaderPhase (s : Socket σ) : Prop where
  size : s.header.size = headerSize
  rd : s.header.rd = 0
  space : 0 < s.header.space
  recvWPct : s.recvWPct = none
  recvPct : s.recvPct.size = 0
  taken : s.header.length ≤ s.taken

/-- The socket has a complete header and is inside the payload, or at its end. -/
structure PayloadPhase (s : Socket σ) (opcode : ℕ) : Prop where
  size : s.header.size = headerSize
  full : s.header.space = 0
  recvWPct : s.recvWPct = some opcode
  rd : s.recvPct.rd = 0
  taken : s.recvPct.length ≤ s.taken

/-- Where a call leaves the socket: inside a header or inside a payload. -/
def Waiting (s : Socket σ) : Prop :=
  HeaderPhase s ∨ ∃ opcode, PayloadPhase s opcode ∧ 0 < s.recvPct.space

/-- What a round, or a half of one, may do with the bytes `buf`: consume them and wait, reject
the connection at the end of what it took, or go on with other bytes, in a phase `P`. -/
inductive Advances (s : Socket σ) (buf : List UInt8) (P : Socket σ → List UInt8 → Prop) :
    Option (Socket σ × (Status ⊕ List UInt8)) → Prop
  | waits {s' : Socket σ} : Waiting s' →
      (∀ rest, s.meaning peer (buf ++ rest) = s'.meaning peer rest) →
      Advances s buf P (some (s', .inl .wouldBlock))
  | rejects {s' : Socket σ} :
      (∀ rest, s.meaning peer (buf ++ rest) = ⟨s'.handed, some s'.taken⟩) →
      Advances s buf P (some (s', .inl .invalid))
  | goesOn {s' : Socket σ} {buf' : List UInt8} : P s' buf' →
      (∀ rest, s.meaning peer (buf ++ rest) = s'.meaning peer (buf' ++ rest)) →
      Advances s buf P (some (s', .inr buf'))

variable {peer} {s : Socket σ} {buf : List UInt8}

theorem Advances.of_moved {s1 : Socket σ} {buf1 : List UInt8} {P Q : Socket σ → List UInt8 → Prop}
    {out : Option (Socket σ × (Status ⊕ List UInt8))}
    (hmoved : ∀ rest, s.meaning peer (buf ++ rest) = s1.meaning peer (buf1 ++ rest))
    (h : Advances peer s1 buf1 P out) (hPQ : ∀ s' buf', P s' buf' → Q s' buf') :
    Advances peer s buf Q out := by
  cases h with
  | waits hwait heq => exact .waits hwait fun rest => (hmoved rest).trans (heq rest)
  | rejects heq => exact .rejects fun rest => (hmoved rest).trans (heq rest)
  | goesOn hP heq => exact .goesOn (hPQ _ _ hP) fun rest => (hmoved rest).trans (heq rest)

theorem Waiting.meaning_nil (h : Waiting s) : s.meaning peer [] = ⟨s.handed, none⟩ := by
  unfold meaning
  rcases h with h | ⟨opcode, h, hspace⟩
  · have hlen := s.header.length_of_rd h.rd
    rw [h.size] at hlen
    have hshort : (s.header.contents ++ []).length < headerSize := by
      rw [append_nil, Block.length_contents]
      have := h.space
      omega
    rw [h.recvWPct]
    dsimp only
    rw [parse_of_short peer hshort, append_nil]
  have hlen := s.recvPct.length_of_rd h.rd
  have hshort : (s.recvPct.contents ++ []).length < s.recvPct.size := by
    rw [append_nil, Block.length_contents]
    omega
  rw [h.recvWPct]
  dsimp only
  rw [afterHeader, if_pos hshort, append_nil]

/-! ### The header -/

variable (peer) in
/-- **A complete header** is rejected, or announces the payload. -/
theorem handleInputHeader_spec (hfull : s.header.space = 0) (hrd : s.header.rd = 0)
    (hsize : s.header.size = headerSize) (hnone : s.recvWPct = none)
    (hpct : s.recvPct.size = 0) (htaken : headerSize ≤ s.taken) :
    (∃ s', s.handleInputHeader peer = some (s', false) ∧
      ∀ rest, s.meaning peer rest = ⟨s'.handed, some s'.taken⟩) ∨
    (∃ s' opcode, s.handleInputHeader peer = some (s', true) ∧ PayloadPhase s' opcode ∧
      ∀ rest, s.meaning peer rest = s'.meaning peer rest) := by
  have hlen : s.header.length = headerSize := by
    have hsum := s.header.length_of_rd hrd
    omega
  have hbytes : s.header.contents.length = headerSize := by rw [Block.length_contents, hlen]
  have hpos : s.taken - headerSize + headerSize = s.taken := Nat.sub_add_cancel htaken
  have hparse := fun rest => parse_of_header peer s.env (s.taken - headerSize) rest hbytes
  obtain ⟨plain, hplain⟩ : ∃ plain, peer.decryptRecv s.env s.header.contents = plain := ⟨_, rfl⟩
  have hguard : ¬ (s.recvWPct.isSome = true ∨ s.header.length ≠ headerSize) := by
    rw [hnone, hlen]
    simp
  unfold handleInputHeader
  rw [if_neg hguard]
  dsimp only at hparse ⊢
  rw [hplain] at hparse ⊢
  rw [hpos] at hparse
  cases hbad : (ofBytes plain.1).malformed with
  | true =>
    refine .inl ⟨_, rfl, fun rest => ?_⟩
    unfold meaning
    rw [hnone]
    dsimp only
    rw [hlen, hparse rest, hbad, if_pos rfl, append_nil]
  | false =>
    rw [hbad] at hparse
    have hmeaning : ∀ rest, s.meaning peer rest = ⟨s.handed ++ (afterHeader peer plain.2 s.taken
        ((ofBytes plain.1).cmd % 2 ^ 16)
        ((ofBytes plain.1).size - 4) rest).packets,
        (afterHeader peer plain.2 s.taken ((ofBytes plain.1).cmd % 2 ^ 16)
        ((ofBytes plain.1).size - 4) rest).rejected⟩ := by
      intro rest
      unfold meaning
      rw [hnone]
      dsimp only
      rw [hlen, hparse rest]
      rfl
    rw [if_neg Bool.false_ne_true]
    have hempty : s.recvPct.rd = 0 ∧ s.recvPct.length = 0 ∧ s.recvPct.space = 0 := by
      have hsum := s.recvPct.length_add_space
      omega
    split_ifs with hpayload hspace
    · refine .inr ⟨_, _, rfl, ⟨hsize, hfull, rfl, rfl, Nat.zero_le _⟩, fun rest => ?_⟩
      rw [hmeaning]
      unfold meaning
      simp [Block.ofBase, Block.size, Block.length, Block.contents]
    · refine .inr ⟨_, _, rfl, ⟨hsize, hfull, rfl, hempty.1, ?_⟩, fun rest => ?_⟩
      · exact hempty.2.1 ▸ Nat.zero_le _
      have hcontents : s.recvPct.contents = [] := by
        rw [← length_eq_zero_iff, Block.length_contents, hempty.2.1]
      rw [hmeaning]
      unfold meaning
      dsimp only
      rw [hcontents, hempty.2.1, hpct, show (ofBytes plain.1).size - 4 = 0 by omega]
      rfl
    · exact (hspace hempty.2.2).elim

variable (peer) in
/-- **The header half of a round.** -/
theorem receiveHeader_spec (h : HeaderPhase s) (hbuf : buf ≠ []) :
    Advances peer s buf (fun s' buf' => buf'.length < buf.length ∧ ∃ opcode, PayloadPhase s' opcode)
      (s.receiveHeader peer buf) := by
  have hpos := h.space
  have hlen := s.header.length_of_rd h.rd
  have hne : 0 < buf.length := length_pos_iff.mpr hbuf
  have htake : (buf.take (min buf.length s.header.space)).length = min buf.length s.header.space := by
    rw [length_take]
    omega
  obtain ⟨header, hcopy, hcontents, hsize, hrd, hspace⟩ := s.header.exists_copy
    (buf.take (min buf.length s.header.space)) (by omega)
  rw [htake] at hspace
  have hlen' := header.length_of_rd (hrd.trans h.rd)
  obtain ⟨s1, hs1⟩ : ∃ s1 : Socket σ, s1 =
      { s with header, taken := s.taken + min buf.length s.header.space } := ⟨_, rfl⟩
  have htaken := h.taken
  have hsame : s1.taken - header.length = s.taken - s.header.length := by
    rw [hs1]
    dsimp only
    omega
  -- the bytes have only moved into `m_Header`
  have hmoved : ∀ rest, s.meaning peer (buf ++ rest) =
      s1.meaning peer (buf.drop (min buf.length s.header.space) ++ rest) := by
    intro rest
    unfold meaning
    rw [show s1.recvWPct = none by rw [hs1]; exact h.recvWPct, h.recvWPct]
    dsimp only
    rw [show s1.header = header by rw [hs1], hsame, hcontents, show s1.env = s.env by rw [hs1],
      show s1.handed = s.handed by rw [hs1], append_assoc, ← append_assoc (buf.take _),
      take_append_drop]
  unfold receiveHeader
  rw [if_pos hpos]
  dsimp only
  rw [hcopy]
  dsimp only
  have hheader : s1.header = header := by rw [hs1]
  split_ifs with hleft hdrop
  · refine .waits (.inl ?_) fun rest => ?_
    · exact ⟨hsize.trans h.size, hrd.trans h.rd, hleft, h.recvWPct, h.recvPct, by dsimp only; omega⟩
    rw [hmoved, hdrop, hs1]
    rfl
  · exact (hdrop (drop_eq_nil_of_le (by omega))).elim
  rw [← hs1]
  have hfull : s1.header.space = 0 := by rw [hheader]; omega
  rcases handleInputHeader_spec peer hfull (by rw [hheader]; exact hrd.trans h.rd)
    (by rw [hheader]; exact hsize.trans h.size) (by rw [hs1]; exact h.recvWPct)
    (by rw [hs1]; exact h.recvPct) (by rw [hs1]; have := h.size; dsimp only; omega) with
    ⟨s', heq, hmeaning⟩ | ⟨s', opcode, heq, hphase, hmeaning⟩
  · rw [heq]
    refine .rejects fun rest => ?_
    rw [hmoved, hmeaning]
  rw [heq]
  refine .goesOn ⟨?_, opcode, hphase⟩ fun rest => ?_
  · rw [length_drop]
    omega
  · rw [hmoved, hmeaning]

/-! ### The payload -/

/-- **A complete payload** is handed over. -/
theorem deliver_spec {opcode : ℕ} (h : PayloadPhase s opcode) (hspace : s.recvPct.space = 0) :
    Advances peer s buf (fun s' buf' => buf' = buf ∧ HeaderPhase s') (s.deliver peer buf) := by
  have hlen := s.recvPct.length_of_rd h.rd
  have hcontents := s.recvPct.contents_of_full h.rd hspace
  have htaken := h.taken
  have hbase : s.recvPct.base.length = s.recvPct.size := rfl
  have hpos : s.taken - s.recvPct.length + s.recvPct.size = s.taken := by omega
  obtain ⟨ret, hret⟩ : ∃ ret, peer.processIncoming s.env (opcode, s.recvPct.base) = ret := ⟨_, rfl⟩
  have hmeaning : ∀ rest, s.meaning peer rest = if ret.1 then
        ⟨s.handed ++ (opcode, s.recvPct.base) :: (parse peer ret.2 s.taken rest).packets,
          (parse peer ret.2 s.taken rest).rejected⟩
      else ⟨s.handed ++ [(opcode, s.recvPct.base)], some s.taken⟩ := by
    intro rest
    have hlong : ¬ (s.recvPct.base ++ rest).length < s.recvPct.size := by
      rw [length_append]
      omega
    unfold meaning afterHeader
    rw [h.recvWPct]
    dsimp only
    rw [hcontents, if_neg hlong, take_left' hbase, drop_left' hbase, hret, hpos]
    split_ifs <;> rfl
  unfold deliver handleInputPayload
  rw [if_neg (by simp [hspace, h.full]), h.recvWPct]
  dsimp only
  rw [hret]
  obtain ⟨ok, env⟩ := ret
  cases ok with
  | false =>
    refine .rejects fun rest => ?_
    rw [hmeaning]
    rfl
  | true =>
    refine .goesOn ⟨rfl, h.size, rfl, ?_, rfl, rfl, Nat.zero_le _⟩ fun rest => ?_
    · rw [Block.space_reset, h.size]
      decide
    rw [hmeaning]
    unfold meaning
    dsimp only
    rw [Block.contents_reset, nil_append]
    simp [Block.length, Block.reset]

/-- **The payload half of a round.** -/
theorem receivePayload_spec {opcode : ℕ} (h : PayloadPhase s opcode) :
    Advances peer s buf (fun s' buf' => buf'.length + s.recvPct.space = buf.length ∧ HeaderPhase s')
      (s.receivePayload peer buf) := by
  unfold receivePayload
  rw [if_neg (by simp [h.recvWPct])]
  split_ifs with hpos
  · obtain ⟨n, hn⟩ : ∃ n, n = min buf.length s.recvPct.space := ⟨_, rfl⟩
    have htake : (buf.take n).length = n := by
      rw [length_take]
      omega
    obtain ⟨recvPct, hcopy, hcontents, hsize, hrd, hspace⟩ := s.recvPct.exists_copy
      (buf.take n) (by omega)
    rw [htake] at hspace
    have hlen := s.recvPct.length_of_rd h.rd
    have hlen' := recvPct.length_of_rd (hrd.trans h.rd)
    have htaken := h.taken
    obtain ⟨s1, hs1⟩ : ∃ s1 : Socket σ, s1 = { s with recvPct, taken := s.taken + n } := ⟨_, rfl⟩
    have hphase : PayloadPhase s1 opcode := by
      rw [hs1]
      exact { h with rd := hrd.trans h.rd, taken := by dsimp only; omega }
    have hsame : s.taken + n - recvPct.length = s.taken - s.recvPct.length := by omega
    -- the bytes have only moved into `m_RecvPct`
    have hmoved : ∀ rest, s.meaning peer (buf ++ rest) = s1.meaning peer (buf.drop n ++ rest) := by
      intro rest
      unfold meaning
      rw [hphase.recvWPct, h.recvWPct, hs1]
      dsimp only
      rw [hsame, hsize, hcontents, append_assoc, ← append_assoc (buf.take _), take_append_drop]
    dsimp only
    rw [← hn, hcopy]
    dsimp only
    split_ifs with hleft hdrop
    · rw [← hs1]
      refine .waits (.inr ⟨opcode, hphase, by rw [hs1]; exact hleft⟩) fun rest => ?_
      rw [hmoved, hdrop, nil_append]
    · exact (hdrop (drop_eq_nil_of_le (by omega))).elim
    rw [← hs1]
    have hfull : s1.recvPct.space = 0 := by
      rw [hs1]
      dsimp only
      omega
    refine .of_moved hmoved (deliver_spec hphase hfull) ?_
    rintro s' _ ⟨rfl, hheader⟩
    refine ⟨?_, hheader⟩
    rw [length_drop]
    omega
  have hfull : s.recvPct.space = 0 := by omega
  refine .of_moved (fun _ => rfl) (deliver_spec h hfull) ?_
  rintro s' _ ⟨rfl, hheader⟩
  exact ⟨by omega, hheader⟩

/-! ### The loop -/

variable (peer) in
/-- **One round** consumes bytes and keeps the meaning of the stream. -/
theorem round_spec (h : Waiting s) (hbuf : buf ≠ []) :
    Advances peer s buf (fun s' buf' => buf'.length < buf.length ∧ HeaderPhase s')
      (s.round peer buf) := by
  have hne : 0 < buf.length := length_pos_iff.mpr hbuf
  unfold Socket.round
  rcases h with h | ⟨opcode, h, hspace⟩
  · have hheader := receiveHeader_spec peer h hbuf
    generalize s.receiveHeader peer buf = out at hheader ⊢
    cases hheader with
    | waits hwait heq => exact .waits hwait heq
    | rejects heq => exact .rejects heq
    | goesOn hP heq =>
      obtain ⟨hlt, opcode, hphase⟩ := hP
      refine .of_moved heq (receivePayload_spec hphase) ?_
      rintro s' buf' ⟨hlen, hheader⟩
      exact ⟨by omega, hheader⟩
  have hskip : s.receiveHeader peer buf = some (s, .inr buf) := by
    unfold receiveHeader
    rw [if_neg (by rw [h.full]; exact Nat.lt_irrefl 0)]
  rw [hskip]
  refine .of_moved (fun _ => rfl) (receivePayload_spec h) ?_
  rintro s' buf' ⟨hlen, hheader⟩
  exact ⟨by omega, hheader⟩

/-- **The loop of `handle_input_missing_data`** ends, with the bytes consumed or the connection
rejected, and fails no assertion. -/
theorem rounds_spec {finish : Status} (hfinish : finish ≠ .invalid) (fuel : ℕ) :
    ∀ (s : Socket σ) (buf : List UInt8), Waiting s → buf.length ≤ fuel →
      ∃ s' status, rounds peer finish fuel s buf = some (s', status) ∧
        ((status ≠ .invalid ∧ Waiting s' ∧
            ∀ rest, s.meaning peer (buf ++ rest) = s'.meaning peer rest) ∨
          (status = .invalid ∧ ∀ rest, s.meaning peer (buf ++ rest) = ⟨s'.handed, some s'.taken⟩)) := by
  induction fuel with
  | zero =>
    intro s buf h hfuel
    obtain rfl : buf = [] := length_eq_zero_iff.mp (Nat.le_zero.mp hfuel)
    exact ⟨s, finish, rfl, .inl ⟨hfinish, h, fun _ => rfl⟩⟩
  | succ fuel ih =>
    intro s buf h hfuel
    cases buf with
    | nil => exact ⟨s, finish, rfl, .inl ⟨hfinish, h, fun _ => rfl⟩⟩
    | cons b buf =>
      have hround := round_spec peer h (cons_ne_nil b buf)
      rw [rounds]
      generalize s.round peer (b :: buf) = out at hround ⊢
      cases hround with
      | waits hwait heq => exact ⟨_, _, rfl, .inl ⟨by decide, hwait, heq⟩⟩
      | rejects heq => exact ⟨_, _, rfl, .inr ⟨rfl, heq⟩⟩
      | @goesOn s1 buf1 hP heq =>
        obtain ⟨hlt, hheader⟩ := hP
        obtain ⟨s', status, hrounds, hcases⟩ := ih s1 buf1 (.inl hheader) (by omega)
        refine ⟨s', status, hrounds, ?_⟩
        rcases hcases with ⟨hne, hwait, heq'⟩ | ⟨hinvalid, heq'⟩
        · exact .inl ⟨hne, hwait, fun rest => (heq rest).trans (heq' rest)⟩
        · exact .inr ⟨hinvalid, fun rest => (heq rest).trans (heq' rest)⟩

/-! ### The connection -/

variable (peer) in
/-- **One `recv`.** -/
theorem handleInputMissingData_spec (h : Waiting s) (recv : Recv) :
    ∃ s' status, s.handleInputMissingData peer recv = some (s', status) ∧
      ((status ≠ .invalid ∧ Waiting s' ∧
          ∀ rest, s.meaning peer (recv.bytes ++ rest) = s'.meaning peer rest) ∨ (status = .invalid ∧
          ∀ rest, s.meaning peer (recv.bytes ++ rest) = ⟨s'.handed, some s'.taken⟩)) := by
  refine rounds_spec ?_ _ s recv.bytes h (Nat.le_refl _)
  split_ifs <;> decide

theorem foldlM_closed (recvs : List Recv) :
    recvs.foldlM (handleInput peer) (s, true) = some (s, true) := by
  induction recvs with
  | nil => rfl
  | cons recv recvs ih =>
    rw [foldlM_cons]
    exact ih

variable (peer) in
theorem foldlM_handleInput (recvs : List Recv) : ∀ s : Socket σ, Waiting s → ∃ s' closed,
      recvs.foldlM (handleInput peer) (s, false) = some (s', closed) ∧
        s.meaning peer (recvs.flatMap Recv.bytes) =
          ⟨s'.handed, if closed then some s'.taken else none⟩ := by
  induction recvs with
  | nil =>
    intro s h
    exact ⟨s, false, rfl, h.meaning_nil⟩
  | cons recv recvs ih =>
    intro s h
    obtain ⟨s1, status, hdata, hcases⟩ := handleInputMissingData_spec peer h recv
    have hstep : handleInput peer (s, false) recv = some (s1, decide (status = .invalid)) := by
      unfold handleInput
      rw [if_neg Bool.false_ne_true, hdata]
    rw [foldlM_cons, hstep, flatMap_cons]
    rcases hcases with ⟨hne, hwait, heq⟩ | ⟨rfl, heq⟩
    · obtain ⟨s', closed, hrun, hmeaning⟩ := ih s1 hwait
      rw [decide_eq_false hne]
      exact ⟨s', closed, hrun, (heq _).trans hmeaning⟩
    · exact ⟨s1, true, foldlM_closed recvs, heq _⟩

theorem waiting_start (env : σ) : Waiting (start env) :=
  .inl ⟨rfl, rfl, Nat.succ_pos 5, rfl, rfl, Nat.zero_le _⟩

/-- **The packets do not depend on the segmentation.**  Whatever pieces of at most 4096 bytes
`recv` returns, and whatever `DecryptRecv` and `ProcessIncoming` do, no assertion fails, the
packets given to `ProcessIncoming` are those of the whole stream, and the connection is rejected
if and where the stream is. -/
theorem frames_independent_of_recv (peer : Peer σ) (env : σ) (recvs : List Recv) :
    ∃ s closed, recvs.foldlM (handleInput peer) (start env, false) = some (s, closed) ∧
      parse peer env 0 (recvs.flatMap Recv.bytes) =
        ⟨s.handed, if closed then some s.taken else none⟩ := by
  obtain ⟨s, closed, hrun, hmeaning⟩ :=
    foldlM_handleInput peer recvs (start env) (waiting_start env)
  refine ⟨s, closed, hrun, ?_⟩
  rw [← hmeaning]
  rfl

end ZerosCore.WorldSocket
