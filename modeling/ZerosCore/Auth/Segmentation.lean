/-
# Which cuts of the stream a logon client survives

A client that sends complete, well-formed commands is to be handled in the same
way however its stream is cut: after every `recv`, the handlers have seen the
commands that have arrived whole, in order, and the buffer holds the part of the
next one.

That is so just when no `recv` ends inside a challenge at or behind its 35th
byte.  Up to there the handler of a challenge returns without touching the
buffer; from there on it takes the header of four bytes and then finds that the
rest is missing, and the next call of `OnRead` reads the middle of the challenge
as the start of a command.

It is supposed that the handlers go on to the next command: a handler that
returns `false` for a complete command leaves the commands behind it in the
buffer until more bytes come, and one that shuts the socket down and returns
`true` has them handled if they have arrived already.  Nothing is asked of the
last command of the stream.
-/

import ZerosCore.Lib.Run
import ZerosCore.Auth.Framing
import Mathlib.Data.List.GetD

namespace ZerosCore.AuthSocket

open Lib List Option Socket

/-! ### Streams of commands -/

/-- The two commands that carry their size. -/
def Command.isChallenge : Command → Bool
  | .logonChallenge | .reconnectChallenge => true
  | _ => false

/-- A complete, well-formed command: a challenge declares its own size, which the buffer can
hold; the others have a fixed size. -/
def WellFormed (command : Command) (bytes : List UInt8) : Prop :=
  bytes.head? = some command.code ∧
    match command with
    | .logonChallenge | .reconnectChallenge =>
      challengeSize ≤ bytes.length ∧ bytes.length ≤ inputBufferSize ∧
        declaredSize bytes + 4 = bytes.length
    | .logonProof => bytes.length = logonProofSize
    | .reconnectProof => bytes.length = reconnectProofSize
    | .realmList => bytes.length = 5
    | _ => False

instance (command : Command) (bytes : List UInt8) : Decidable (WellFormed command bytes) := by
  unfold WellFormed
  cases command <;> exact inferInstance

/-- A command with its bytes. -/
structure Message where
  command : Command
  bytes : List UInt8
  wf : WellFormed command bytes

def stream (ms : List Message) : List UInt8 := ms.flatMap Message.bytes

/-- What the handlers are given. -/
def calls (ms : List Message) : List (Command × List UInt8) := ms.map fun m => (m.command, m.bytes)

/-- The commands that have arrived whole, and the part of the next one. -/
def complete : List Message → List UInt8 → List Message × List UInt8
  | [], bytes => ([], bytes)
  | m :: ms, bytes =>
    if m.bytes.length ≤ bytes.length then
      let rest := complete ms (bytes.drop m.bytes.length)
      (m :: rest.1, rest.2)
    else ([], bytes)

/-- What has arrived of the next command is more than a handler of a challenge leaves alone. -/
def CutBehindHeader (part : List UInt8) : Prop :=
  challengeSize ≤ part.length ∧ (part.head? = some Command.logonChallenge.code ∨
      part.head? = some Command.reconnectChallenge.code)

instance (part : List UInt8) : Decidable (CutBehindHeader part) := by
  unfold CutBehindHeader
  infer_instance

/-! ### One command -/

theorem Message.length_pos (m : Message) : 0 < m.bytes.length := by
  have h := m.wf.1
  cases hb : m.bytes with
  | nil => rw [hb] at h; cases h
  | cons b bytes => exact Nat.succ_pos _

theorem Message.length_le (m : Message) : m.bytes.length ≤ inputBufferSize := by
  obtain ⟨command, bytes, hcode, hsize⟩ := m
  cases command with
  | logonChallenge | reconnectChallenge => exact hsize.2.1
  | logonProof | reconnectProof | realmList => exact hsize.trans_le (by decide)
  | xferAccept | xferResume | xferCancel => exact hsize.elim

theorem declaredSize_append {as : List UInt8} (h : 4 ≤ as.length) (bs : List UInt8) :
    declaredSize (as ++ bs) = declaredSize as := by
  unfold declaredSize
  rw [getD_append _ _ _ _ (by omega), getD_append _ _ _ _ (by omega)]

/-- **A complete command is taken whole**, whatever stands behind it. -/
theorem Message.read_complete (m : Message) (rest : List UInt8) :
    m.command.read (m.bytes ++ rest) = .command m.bytes.length := by
  have hlen : (m.bytes ++ rest).length = m.bytes.length + rest.length := length_append
  have hfixed : ∀ size, m.bytes.length = size →
      readFixed size (m.bytes ++ rest) = .command m.bytes.length := by
    rintro size rfl
    unfold readFixed
    rw [if_neg (by omega)]
  have hchallenge : challengeSize ≤ m.bytes.length → declaredSize m.bytes + 4 = m.bytes.length →
      readChallenge (m.bytes ++ rest) = .command m.bytes.length := by
    intro hmin hdecl
    unfold challengeSize at hmin
    unfold readChallenge challengeSize
    rw [declaredSize_append (by omega), if_neg (by omega)]
    rw [if_neg (by omega), Nat.add_comm 4, hdecl]
  obtain ⟨command, bytes, hcode, hsize⟩ := m
  cases command with
  | logonChallenge | reconnectChallenge => exact hchallenge hsize.1 hsize.2.2
  | logonProof | reconnectProof | realmList => exact hfixed _ hsize
  | xferAccept | xferResume | xferCancel => exact hsize.elim

variable {part : List UInt8}

/-- **A part of a command is left alone**, except that a challenge loses its header. -/
theorem Message.read_part (m : Message) (hpart : part <+: m.bytes)
    (hne : part ≠ []) (hlt : part.length < m.bytes.length) :
    m.command.read part = if CutBehindHeader part then .dropped 4 else .short := by
  have hhead : part.head? = some m.command.code := by
    rw [← m.wf.1]
    obtain ⟨rest, hrest⟩ := hpart
    rw [← hrest, head?_append_of_ne_nil _ hne]
  have hfixed : ∀ size, m.bytes.length = size → m.command.isChallenge = false →
      readFixed size part = if CutBehindHeader part then .dropped 4 else .short := by
    rintro size rfl hnot
    unfold readFixed
    rw [if_pos hlt, if_neg]
    rintro ⟨-, hcode | hcode⟩
    all_goals
      rw [hhead] at hcode
      revert hnot hcode
      cases m.command <;> decide
  have hchallenge : challengeSize ≤ m.bytes.length → declaredSize m.bytes + 4 = m.bytes.length →
      m.command.isChallenge = true →
      readChallenge part = if CutBehindHeader part then .dropped 4 else .short := by
    intro hmin hdecl hyes
    have hcode : part.head? = some Command.logonChallenge.code ∨
        part.head? = some Command.reconnectChallenge.code := by
      rw [hhead]
      revert hyes
      cases m.command <;> decide
    unfold readChallenge
    by_cases hlong : part.length < challengeSize
    · rw [if_pos hlong, if_neg fun hcut => Nat.not_le_of_lt hlong hcut.1]
    have hsame : declaredSize part = declaredSize m.bytes := by
      obtain ⟨rest, hrest⟩ := hpart
      unfold challengeSize at hlong
      rw [← hrest, declaredSize_append (by omega)]
    have hmissing : declaredSize part < challengeSize - 4 ∨
        part.length - 4 < declaredSize part := by
      unfold challengeSize at hlong
      right
      omega
    rw [if_neg hlong, if_pos (show CutBehindHeader part from ⟨Nat.le_of_not_lt hlong, hcode⟩)]
    exact if_pos hmissing
  obtain ⟨command, bytes, hcode, hsize⟩ := m
  cases command with
  | logonChallenge | reconnectChallenge => exact hchallenge hsize.1 hsize.2.2 rfl
  | logonProof | reconnectProof | realmList => exact hfixed _ hsize rfl
  | xferAccept | xferResume | xferCancel => exact hsize.elim

/-! ### The part of the stream that has arrived -/

theorem complete_append (ms : List Message) (as bs : List UInt8) : complete ms (as ++ bs) =
      ((complete ms as).1 ++
          (complete (ms.drop (complete ms as).1.length) ((complete ms as).2 ++ bs)).1,
        (complete (ms.drop (complete ms as).1.length) ((complete ms as).2 ++ bs)).2) := by
  induction ms generalizing as with
  | nil => rfl
  | cons m ms ih =>
    by_cases hlen : m.bytes.length ≤ as.length
    · have hlen' : m.bytes.length ≤ (as ++ bs).length := by
        rw [length_append]
        omega
      rw [complete, complete, if_pos hlen, if_pos hlen', drop_append_of_le_length hlen]
      rw [ih, length_cons, drop_succ_cons]
      rfl
    have hnone : complete (m :: ms) as = ([], as) := by rw [complete, if_neg hlen]
    rw [hnone]
    rfl

theorem complete_stream (ms : List Message) : complete ms (stream ms) = (ms, []) := by
  induction ms with
  | nil => rfl
  | cons m ms ih =>
    have hstream : stream (m :: ms) = m.bytes ++ stream ms := rfl
    have hlen : m.bytes.length ≤ (m.bytes ++ stream ms).length := by
      rw [length_append]
      omega
    rw [hstream, complete, if_pos hlen, drop_left, ih]

theorem complete_spec {ms : List Message} {bytes : List UInt8} (h : bytes <+: stream ms) :
    bytes = stream (complete ms bytes).1 ++ (complete ms bytes).2 ∧
      (complete ms bytes).1 <+: ms ∧ (complete ms bytes).2.length < inputBufferSize ∧
      ((complete ms bytes).1.length = ms.length → (complete ms bytes).2 = []) := by
  induction ms generalizing bytes with
  | nil =>
    obtain rfl : bytes = [] := prefix_nil.mp h
    exact ⟨rfl, prefix_refl _, by decide, fun _ => rfl⟩
  | cons m ms ih =>
    unfold complete
    split_ifs with hlen
    · have hrest : bytes = m.bytes ++ bytes.drop m.bytes.length ∧
          bytes.drop m.bytes.length <+: stream ms := by
        have hm : m.bytes <+: bytes :=
          prefix_of_prefix_length_le (prefix_append _ (stream ms)) h hlen
        obtain ⟨rest, rfl⟩ := hm
        rw [drop_left]
        exact ⟨rfl, (prefix_append_right_inj _).mp h⟩
      obtain ⟨heq, hle, hlt, hall⟩ := ih hrest.2
      refine ⟨?_, (prefix_cons_inj m).mpr hle, hlt, fun hfull => hall (Nat.succ.inj hfull)⟩
      show bytes = m.bytes ++ stream _ ++ _
      rw [append_assoc, ← heq, ← hrest.1]
    have hmax := m.length_le
    refine ⟨rfl, nil_prefix, ?_, fun hfull => ?_⟩
    · show bytes.length < inputBufferSize
      omega
    · cases hfull

/-! ### `OnRead` on a part of a stream -/

variable {σ : Type*} (h : Handlers σ)

/-- The handlers go on: a request for the realm list comes from an authenticated client, and every
handler but the last returns `true` and leaves the socket open. -/
def Accepts : σ → List Message → Prop
  | _, [] => True
  | env, m :: ms =>
    (m.command = .realmList → h.authed env = true) ∧
      (ms = [] ∨ (h.handle env m.command m.bytes).2 = ⟨true, false⟩ ∧
        Accepts (h.handle env m.command m.bytes).1 ms)

theorem Message.findCommand_eq (m : Message) {authed : Bool} :
    (m.command = .realmList → authed = true) →
      findCommand authed m.command.code = some m.command := by
  obtain ⟨command, bytes, -, hsize⟩ := m
  intro hauthed
  cases command with
  | realmList =>
    obtain rfl := hauthed rfl
    rfl
  | logonChallenge | logonProof | reconnectChallenge | reconnectProof => cases authed <;> rfl
  | xferAccept | xferResume | xferCancel => exact hsize.elim

variable {env : σ}

theorem onRead_complete (m : Message) (rest : List UInt8) (fuel : ℕ)
    (hauthed : m.command = .realmList → h.authed env = true) :
    onRead h (fuel + 1) env (m.bytes ++ rest) = let out := h.handle env m.command m.bytes
      if out.2.ret then
        let o := onRead h fuel out.1 rest
        { env := o.env, taken := m.bytes.length + o.taken
          handled := (m.command, m.bytes) :: o.handled
          shutdown := out.2.shutdown || o.shutdown }
      else ⟨out.1, m.bytes.length, [(m.command, m.bytes)], out.2.shutdown⟩ := by
  obtain ⟨b, bytes, hbytes⟩ : ∃ b bytes, m.bytes = b :: bytes :=
    exists_cons_of_length_pos m.length_pos
  have hcode : b = m.command.code := by
    have hhead := m.wf.1
    rw [hbytes] at hhead
    exact some.inj hhead
  have hread := m.read_complete rest
  have hfind := m.findCommand_eq hauthed
  rw [← hcode] at hfind
  have hall : m.bytes ++ rest = b :: (bytes ++ rest) := by rw [hbytes]; rfl
  rw [hall] at hread ⊢
  rw [onRead, hfind]
  dsimp only
  rw [hread]
  dsimp only
  rw [← hall, take_left, drop_left]

theorem onRead_part (m : Message) (fuel : ℕ)
    (hauthed : m.command = .realmList → h.authed env = true) (hpart : part <+: m.bytes)
    (hne : part ≠ []) (hlt : part.length < m.bytes.length) :
    onRead h (fuel + 1) env part = ⟨env, if CutBehindHeader part then 4 else 0, [], false⟩ := by
  have hread := m.read_part hpart hne hlt
  have hhead : part.head? = some m.command.code := by
    rw [← m.wf.1]
    obtain ⟨rest, hrest⟩ := hpart
    rw [← hrest, head?_append_of_ne_nil _ hne]
  obtain ⟨b, bytes, rfl⟩ := exists_cons_of_ne_nil hne
  obtain rfl : b = m.command.code := some.inj hhead
  rw [onRead, m.findCommand_eq hauthed]
  dsimp only
  rw [hread]
  split_ifs <;> rfl

/-- **`OnRead`** gives the handlers the commands that have arrived whole.  Of the part behind them
it takes nothing, or the header of a challenge. -/
theorem onRead_spec (ms : List Message) :
    ∀ (env : σ) (bytes : List UInt8) (fuel : ℕ), bytes.length ≤ fuel → bytes <+: stream ms →
      Accepts h env ms →
      (onRead h fuel env bytes).handled = calls (complete ms bytes).1 ∧
        (onRead h fuel env bytes).taken = (stream (complete ms bytes).1).length +
          (if CutBehindHeader (complete ms bytes).2 then 4 else 0) ∧
        ((complete ms bytes).1.length < ms.length → (onRead h fuel env bytes).shutdown = false ∧
            Accepts h (onRead h fuel env bytes).env (ms.drop (complete ms bytes).1.length)) := by
  induction ms with
  | nil =>
    intro env bytes fuel _ hpart _
    obtain rfl : bytes = [] := prefix_nil.mp hpart
    rw [onRead.eq_1]
    exact ⟨rfl, rfl, nofun⟩
  | cons m ms ih =>
    rintro env bytes fuel hfuel hpart ⟨hauthed, hgoesOn⟩
    by_cases hlen : m.bytes.length ≤ bytes.length
    · -- the first command has arrived
      obtain ⟨rest, rfl⟩ : m.bytes <+: bytes :=
        prefix_of_prefix_length_le (prefix_append _ (stream ms)) hpart hlen
      have hrest : rest <+: stream ms := (prefix_append_right_inj _).mp hpart
      have hcomplete : complete (m :: ms) (m.bytes ++ rest) =
          (m :: (complete ms rest).1, (complete ms rest).2) := by
        rw [complete, if_pos hlen, drop_left]
      have hpos := m.length_pos
      rw [length_append] at hfuel
      obtain ⟨fuel, rfl⟩ : ∃ n, fuel = n + 1 := ⟨fuel - 1, by omega⟩
      rw [onRead_complete h m rest fuel hauthed, hcomplete]
      dsimp only
      rcases hgoesOn with rfl | ⟨hok, haccepts⟩
      · obtain rfl : rest = [] := prefix_nil.mp hrest
        have hdone : onRead h fuel (h.handle env m.command m.bytes).1 [] =
            ⟨(h.handle env m.command m.bytes).1, 0, [], false⟩ := by rw [onRead.eq_1]
        have htaken : (stream (m :: (complete [] []).1)).length +
            (if CutBehindHeader (complete [] []).2 then 4 else 0) = m.bytes.length := by
          rw [if_neg (by decide)]
          simp [complete, stream]
        rw [hdone, htaken]
        cases (h.handle env m.command m.bytes).2.ret with
        | true | false => exact ⟨rfl, rfl, fun hlt => (Nat.lt_irrefl 1 hlt).elim⟩
      obtain ⟨hhandled, htaken, hmore⟩ := ih _ rest fuel (by omega) hrest haccepts
      rw [hok, if_pos rfl]
      refine ⟨?_, ?_, fun hlt => ?_⟩
      · rw [hhandled]
        rfl
      · rw [htaken, ← Nat.add_assoc, ← length_append]
        rfl
      obtain ⟨hshutdown, haccepts'⟩ := hmore (Nat.lt_of_succ_lt_succ hlt)
      exact ⟨hshutdown, haccepts'⟩
    -- only a part of it has
    have hm : bytes <+: m.bytes :=
      prefix_of_prefix_length_le hpart (prefix_append _ (stream ms)) (by omega)
    have haccepts : Accepts h env (m :: ms) := ⟨hauthed, hgoesOn⟩
    rw [complete, if_neg hlen]
    rcases eq_or_ne bytes [] with rfl | hne
    · rw [onRead.eq_1]
      exact ⟨rfl, rfl, fun _ => ⟨rfl, haccepts⟩⟩
    have hpos : 0 < bytes.length := length_pos_iff.mpr hne
    obtain ⟨fuel, rfl⟩ : ∃ n, fuel = n + 1 := ⟨fuel - 1, by omega⟩
    rw [onRead_part h m fuel hauthed hm hne (by omega)]
    exact ⟨rfl, (Nat.zero_add _).symm, fun _ => ⟨rfl, haccepts⟩⟩

/-! ### The connection -/

/-- **The socket is in step with its client**: the handlers have seen the commands that have
arrived whole, and the buffer holds the part of the next one. -/
structure InStep (ms : List Message) (s : Socket σ) : Prop where
  handled : s.handled = calls (complete ms s.received).1
  buffer : s.input.contents = (complete ms s.received).2

/-- The bytes end inside a challenge, at or behind its 35th byte. -/
def BadCut (ms : List Message) (bytes : List UInt8) : Prop := CutBehindHeader (complete ms bytes).2

instance (ms : List Message) (bytes : List UInt8) : Decidable (BadCut ms bytes) := by
  unfold BadCut
  infer_instance

/-- The bytes that `recv` returns when it is asked for `n`. -/
def Socket.chunk (s : Socket σ) (n : ℕ) : List UInt8 := s.wire.take (min n s.input.space)

/-- The invariant of a run without bad cuts. -/
structure Ready (ms : List Message) (s : Socket σ) : Prop where
  inStep : InStep ms s
  uncut : ¬ BadCut ms s.received
  arrives : s.received ++ s.wire = stream ms
  size : s.input.size = inputBufferSize
  rd : s.input.rd = 0
  goesOn : (complete ms s.received).1.length < ms.length →
    s.closed = false ∧ Accepts h s.env (ms.drop (complete ms s.received).1.length)

variable {h} {ms : List Message} {s : Socket σ}

section

variable (hs : Ready h ms s)

include hs

theorem Ready.received_prefix : s.received <+: stream ms := ⟨_, hs.arrives⟩

theorem Ready.space_pos : s.input.space ≠ 0 := by
  have hlen := s.input.length_of_rd hs.rd
  obtain ⟨-, -, hlt, -⟩ := complete_spec hs.received_prefix
  rw [← hs.inStep.buffer, Block.length_contents] at hlt
  have hsize := hs.size
  omega

theorem Ready.part_prefix {chunk : List UInt8} (hchunk : chunk <+: s.wire) :
    s.input.contents ++ chunk <+: stream (ms.drop (complete ms s.received).1.length) := by
  obtain ⟨hreceived, ⟨rest, hrest⟩, -, -⟩ := complete_spec hs.received_prefix
  obtain ⟨done, hdone⟩ : ∃ done, done = (complete ms s.received).1 := ⟨_, rfl⟩
  rw [← hdone] at hreceived hrest ⊢
  have hdrop : ms.drop done.length = rest := by rw [← hrest, drop_left]
  have hstream : stream ms = stream done ++ stream rest := by
    rw [← hrest]
    exact flatMap_append
  have harrives := hs.arrives
  rw [hreceived, hstream, append_assoc, append_cancel_left_eq] at harrives
  rw [hdrop, ← harrives, hs.inStep.buffer, prefix_append_right_inj]
  exact hchunk

theorem Ready.chunk_eq_nil (n : ℕ)
    (hall : ¬ (complete ms s.received).1.length < ms.length) : s.chunk n = [] := by
  have hpart := hs.part_prefix ( take_prefix (min n s.input.space) s.wire)
  rw [drop_eq_nil_of_le (Nat.le_of_not_lt hall)] at hpart
  exact (append_eq_nil_iff.mp (prefix_nil.mp hpart)).2

/-- **One `recv`** keeps the socket in step, unless it is a bad cut. -/
theorem Ready.handleInput (n : ℕ) :
    (InStep ms (handleInput h s n) ↔ ¬ BadCut ms (s.received ++ s.chunk n)) ∧
      (InStep ms (handleInput h s n) → Ready h ms (handleInput h s n)) := by
  by_cases hempty : s.chunk n = []
  · -- nothing has come
    have hsame : AuthSocket.handleInput h s n = s := by
      unfold AuthSocket.handleInput
      dsimp only
      rw [if_neg hs.space_pos, if_pos (show s.wire.take (min n s.input.space) = [] from hempty),
        ite_self]
    rw [hsame, hempty, append_nil]
    exact ⟨iff_of_true hs.inStep hs.uncut, fun _ => hs⟩
  have hmore : (complete ms s.received).1.length < ms.length := by
    by_contra hall
    exact hempty (hs.chunk_eq_nil n hall)
  obtain ⟨hopen, haccepts⟩ := hs.goesOn hmore
  obtain ⟨chunk, hchunk⟩ : ∃ chunk, chunk = s.chunk n := ⟨_, rfl⟩
  rw [← hchunk] at hempty ⊢
  have hfits : chunk.length ≤ s.input.space := by
    rw [hchunk, Socket.chunk, length_take]
    omega
  have hwire : chunk <+: s.wire := hchunk ▸ take_prefix _ _
  have hpart := hs.part_prefix hwire
  obtain ⟨input, hcopy, hcontents, hsize, hrd, -⟩ := s.input.exists_copy chunk hfits
  rw [← hcontents] at hpart
  obtain ⟨hhandled, htaken, hnext⟩ := onRead_spec h _ s.env input.contents input.length
    (by rw [Block.length_contents]) hpart haccepts
  obtain ⟨hsplit, -, -, -⟩ := complete_spec hpart
  have hcomplete := complete_append ms s.received chunk
  rw [← hs.inStep.buffer, ← hcontents] at hcomplete
  generalize complete (ms.drop (complete ms s.received).1.length) input.contents = parts at *
  obtain ⟨done, part⟩ := parts
  dsimp only at hhandled htaken hnext hsplit hcomplete
  -- what `OnRead` leaves in the buffer
  obtain ⟨k, hk⟩ : ∃ k, k = if CutBehindHeader part then 4 else 0 := ⟨_, rfl⟩
  rw [← hk] at htaken
  have hk_le : k ≤ part.length := by
    rw [hk]
    split_ifs with hcut
    · exact Nat.le_trans (by decide) hcut.1
    · exact Nat.zero_le _
  have hlen : input.length = (stream done).length + part.length := by
    rw [← Block.length_contents, hsplit, length_append]
  obtain ⟨input', hadvance, hcontents', hsize', -⟩ := input.exists_advance
    (show (stream done).length + k ≤ input.length by omega)
  have hbuffer : input'.crunch.contents = part.drop k := by
    rw [Block.contents_crunch, hcontents', hsplit, ← drop_drop, drop_left]
  have hiff : part.drop k = part ↔ ¬ CutBehindHeader part := by
    rw [hk]
    split_ifs with hcut
    · refine iff_of_false (fun heq => ?_) (not_not_intro hcut)
      have hlen' := congrArg List.length heq
      have hlong : 35 ≤ part.length := hcut.1
      rw [length_drop] at hlen'
      omega
    · exact iff_of_true rfl hcut
  obtain ⟨s', hs'⟩ : ∃ s', s' = AuthSocket.handleInput h s n := ⟨_, rfl⟩
  rw [← hs']
  unfold AuthSocket.handleInput at hs'
  rw [if_neg (by rw [hopen]; exact Bool.false_ne_true), if_neg hs.space_pos,
    show s.wire.take (min n s.input.space) = chunk from hchunk.symm, if_neg hempty, hcopy] at hs'
  dsimp only at hs'
  rw [htaken, hadvance] at hs'
  have hreceived : complete ms s'.received = ((complete ms s.received).1 ++ done, part) := by
    rw [hs', ← hcomplete]
  have hcut : BadCut ms (s.received ++ chunk) ↔ CutBehindHeader part := by
    rw [BadCut, hcomplete]
  have hinStep : InStep ms s' ↔ ¬ CutBehindHeader part := by
    rw [← hiff]
    refine ⟨fun hin => ?_, fun heq => ⟨?_, ?_⟩⟩
    · rw [← hbuffer, show input'.crunch = s'.input by rw [hs'], hin.buffer, hreceived]
    · rw [hreceived, hs']
      rw [hs.inStep.handled, hhandled]
      exact map_append.symm
    · rw [hreceived, show s'.input = input'.crunch by rw [hs'], hbuffer, heq]
  refine ⟨hinStep.trans (not_congr hcut.symm), fun hin => ⟨hin, ?_, ?_, ?_, ?_, ?_⟩⟩
  · rw [BadCut, hreceived]
    exact hinStep.mp hin
  · obtain ⟨rest, hrest⟩ := hwire
    rw [hs', ← hs.arrives]
    rw [← hrest, drop_left, append_assoc]
  · rw [hs', Block.size_crunch, hsize', hsize, hs.size]
  · rw [hs']
    rfl
  rw [hreceived]
  rw [length_append]
  intro hlt
  obtain ⟨hshutdown, haccepts'⟩ := hnext (by rw [length_drop]; omega)
  rw [drop_drop] at haccepts'
  rw [hs']
  exact ⟨hshutdown, haccepts'⟩

end

theorem ready_start (haccepts : Accepts h env ms) : Ready h ms (start env (stream ms)) := by
  have hnone : complete ms [] = ([], []) := by
    cases ms with
    | nil => rfl
    | cons m ms =>
      rw [complete, if_neg (show ¬ m.bytes.length ≤ ([] : List UInt8).length from
          Nat.not_le_of_lt m.length_pos)]
  have hreceived : (start env (stream ms)).received = [] := rfl
  refine ⟨⟨?_, ?_⟩, ?_, rfl, length_replicate, rfl, fun _ => ⟨rfl, ?_⟩⟩
  · rw [hreceived, hnone]
    rfl
  · rw [hreceived, hnone]
    rfl
  · rw [hreceived, BadCut, hnone]
    decide
  rw [hreceived, hnone]
  exact haccepts

/-- **The cuts that do not matter.**  For handlers that go on, `OnRead` on the whole stream gives
them all commands in order; and however the stream is cut into pieces, the socket is in step with
its client after every `recv` if and only if no `recv` ends inside a challenge at or behind its
35th byte. -/
theorem inStep_iff_no_badCut (h : Handlers σ) (env : σ) (ms : List Message)
    (haccepts : Accepts h env ms) :
    (onRead h (stream ms).length env (stream ms)).handled = calls ms ∧ ∀ ns : List ℕ,
        Along (handleInput h) (fun s n => InStep ms (handleInput h s n))
            (start env (stream ms)) ns ↔
          Along (handleInput h) (fun s n => ¬ BadCut ms (s.received ++ s.chunk n))
            (start env (stream ms)) ns := by
  constructor
  · rw [(onRead_spec h ms env (stream ms) _ (Nat.le_refl _) (prefix_refl _) haccepts).1,
      complete_stream]
  exact fun ns => Along.iff_of_invariant (I := Ready h ms) (fun s n hs => (hs.handleInput n).1)
    (fun s n hs => (hs.handleInput n).2) (ready_start haccepts)

/-! ### A challenge cut in two -/

/-- A challenge of 42 bytes. -/
def greeting : Message :=
  ⟨.logonChallenge, [0x00, 0x03, 38, 0] ++ List.replicate 38 0x57, by decide⟩

def greetingProof : Message := ⟨.logonProof, 0x01 :: List.replicate 74 0, by decide⟩

/-- Handlers that go on with every command. -/
def goesOnAlways : Handlers Unit := ⟨fun _ => true, fun env _ _ => (env, ⟨true, false⟩)⟩

theorem inStep_iff_no_badCut_greeting : Accepts goesOnAlways () [greeting, greetingProof] ∧
      (onRead goesOnAlways 117 () (stream [greeting, greetingProof])).handled =
        calls [greeting, greetingProof] ∧ Along (handleInput goesOnAlways)
        (fun s n => InStep [greeting, greetingProof] (handleInput goesOnAlways s n))
        (start () (stream [greeting, greetingProof])) [34, 20, 63] := by
  have haccepts : Accepts goesOnAlways () [greeting, greetingProof] :=
    ⟨fun _ => rfl, Or.inr ⟨rfl, fun _ => rfl, Or.inl rfl⟩⟩
  obtain ⟨hwhole, hcuts⟩ := inStep_iff_no_badCut goesOnAlways () _ haccepts
  refine ⟨haccepts, hwhole, (hcuts [34, 20, 63]).mpr ?_⟩
  decide +kernel

/-- The challenge arrives in two pieces, of 36 and 6 bytes: the first call of `OnRead` takes its
header, and the second finds no command at the fifth byte and shuts the socket down. -/
theorem greeting_cut_lost :
    (onRead goesOnAlways 42 () (stream [greeting])).handled = calls [greeting] ∧
      ([36, 6].foldl (handleInput goesOnAlways)
        (start () (stream [greeting]))).received = stream [greeting] ∧
      ([36, 6].foldl (handleInput goesOnAlways) (start () (stream [greeting]))).handled = [] ∧
      ([36, 6].foldl (handleInput goesOnAlways) (start () (stream [greeting]))).closed = true := by
  decide +kernel

end ZerosCore.AuthSocket
