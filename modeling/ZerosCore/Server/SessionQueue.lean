/-
# No packet of a session is lost, repeated or overtaken

Every packet that `QueuePacket` takes from the socket is processed once,
rejected once, or still queued; `STATUS_LOGGEDIN` packets reach their handlers
in the order in which they arrived, however often they were delayed; no packet
is read after it was deleted; and a packet loop ends after as many rounds as
there are packets.

That is so in every run in which

* a packet that `Update` puts back is not thrown away by the throttler, which
  counts it as a new one (`WorldSession.cpp`: the delayed packet goes through
  `QueuePacket`, is deleted there and then named in the log, and
  `firstDelayedPacket`, on which the loop stops, is no longer in the queue);
* once a packet was put back, the loop goes on until it has put back the
  `STATUS_LOGGEDIN` packets behind it: the filter does not stop it before, and
  no `STATUS_LOGGEDIN` packet arrives before.

The second point costs nothing in `World::UpdateSessions`: its filter lets
everything pass as long as there is no player.
-/

import ZerosCore.Lib.Run
import ZerosCore.Server.Session
import Mathlib.Data.List.Pairwise

namespace ZerosCore.WorldSession

open Lib List Option State

variable (proto : Protocol)

/-- The packet is a `STATUS_LOGGEDIN` one. -/
def Protocol.isLoggedIn (p : Packet) : Bool := (proto.opcodeTable p.opcode).status = .loggedIn

/-- The numbers of the `STATUS_LOGGEDIN` packets of a list. -/
def Protocol.loggedIns (ps : List Packet) : List ℕ := (ps.filter proto.isLoggedIn).map Packet.id

/-- The packets in front of the first delayed one. -/
def State.ahead (s : State) (first : ℕ) : List Packet := s.recvQueue.takeWhile (·.id ≠ first)

/-- The `STATUS_LOGGEDIN` packets that a loop which has put a packet back has still to put
back. -/
def State.waiting (s : State) : List ℕ :=
  match s.control with
  | .updating _ (some first) _ => proto.loggedIns (s.ahead first)
  | _ => []

/-- The packets whose handler was called, the newest first. -/
def State.processed (s : State) : List Packet :=
  (s.fates.filter fun f => f.2 = .processed).map Prod.fst

/-- **What a step is asked to do**, see the head of the file. -/
def Meets (s : State) : Op → Prop
  | .queuePacket now opcode =>
    s.throttled proto now ⟨s.next, opcode⟩ = true ∨
      proto.isLoggedIn ⟨s.next, opcode⟩ = false ∨ s.waiting proto = []
  | .round now _ =>
    match s.control, s.recvQueue with
    | .updating filter first _, p :: _ =>
      (s.continues filter first p = true →
        s.client.verdict (proto.opcodeTable p.opcode).status = .delay →
          s.throttled proto now p = false) ∧
      (filter s.client p = false → s.waiting proto = [])
    | _, _ => True
  | _ => True

instance (s : State) (op : Op) : Decidable (Meets proto s op) := by
  unfold Meets
  split
  · infer_instance
  · split <;> infer_instance
  · infer_instance

/-- No packet loop is running. -/
def State.isIdle (s : State) : Bool :=
  match s.control with
  | .idle => true
  | .updating _ _ _ => false

/-- **What the queue promises**: every accepted packet is in exactly one place, once; handlers
see `STATUS_LOGGEDIN` packets in the order of arrival, and between two packet loops of an open
connection the queue holds them in that order; no packet was read after its deletion. -/
structure Sound (s : State) : Prop where
  once : s.accepted.Perm (s.recvQueue ++ s.fates.map Prod.fst)
  distinct : (s.accepted.map Packet.id).Nodup
  processed : (proto.loggedIns s.processed).Pairwise (· > ·)
  queued : s.isIdle = true → s.client.closed = false →
    (proto.loggedIns s.recvQueue).Pairwise (· < ·)
  fresh : s.stale = []

/-! ### Where the packets are -/

/-- The packets are where the run put them. -/
structure Kept (s : State) : Prop where
  once : s.accepted.Perm (s.recvQueue ++ s.fates.map Prod.fst)
  newest : (s.accepted.map Packet.id).Pairwise (· > ·)
  accepted_lt : ∀ p ∈ s.accepted, p.id < s.next
  deleted_lt : ∀ i ∈ s.deleted, i < s.next
  live : ∀ p ∈ s.recvQueue, p.id ∉ s.deleted
  fresh : s.stale = []

variable {proto} {s : State} {p : Packet} {rest : List Packet}

theorem Kept.mem_accepted (h : Kept s) (hp : p ∈ s.recvQueue) : p ∈ s.accepted :=
  h.once.mem_iff.mpr (mem_append_left _ hp)

theorem Kept.distinct (h : Kept s) : (s.accepted.map Packet.id).Nodup :=
  h.newest.imp fun hgt => Nat.ne_of_gt hgt

theorem Kept.queue_nodup (h : Kept s) : (s.recvQueue.map Packet.id).Nodup := by
  have hall := (h.once.map Packet.id).nodup_iff.mp h.distinct
  rw [map_append] at hall
  exact (nodup_append.mp hall).1

theorem State.read_of_live (h : p.id ∉ s.deleted) : s.read p = s := if_neg h

variable {now : ℕ}

theorem State.queuePacket_of_not_throttled (h : s.throttled proto now p = false) :
    s.queuePacket proto now p = { s with
        throttler := (s.throttler.mustDiscard proto.opcodePerSecond now p.opcode).2
        recvQueue := s.recvQueue ++ [p] } := by
  unfold throttled at h
  unfold queuePacket
  dsimp only
  rw [h]
  rfl

theorem State.reenqueue_of_not_throttled (hlive : p.id ∉ s.deleted)
    (h : s.throttled proto now p = false) : s.reenqueue proto now p = { s with
        throttler := (s.throttler.mustDiscard proto.opcodePerSecond now p.opcode).2
        recvQueue := s.recvQueue ++ [p] } := by
  unfold reenqueue
  rw [queuePacket_of_not_throttled h]
  exact read_of_live hlive

theorem State.arrive_cases (now opcode : ℕ) :
    (s.throttled proto now ⟨s.next, opcode⟩ = true ∧ s.arrive proto now opcode = { s with
        throttler := (s.throttler.mustDiscard proto.opcodePerSecond now opcode).2
        next := s.next + 1, deleted := s.next :: s.deleted }) ∨
    (s.throttled proto now ⟨s.next, opcode⟩ = false ∧ s.arrive proto now opcode = { s with
        throttler := (s.throttler.mustDiscard proto.opcodePerSecond now opcode).2
        recvQueue := s.recvQueue ++ [⟨s.next, opcode⟩]
        next := s.next + 1, accepted := ⟨s.next, opcode⟩ :: s.accepted }) := by
  cases ht : s.throttled proto now ⟨s.next, opcode⟩ with
  | true =>
    refine .inl ⟨rfl, ?_⟩
    unfold arrive
    dsimp only
    rw [ht, if_pos rfl]
    unfold throttled at ht
    unfold queuePacket
    dsimp only at ht ⊢
    rw [ht]
    rfl
  | false =>
    refine .inr ⟨rfl, ?_⟩
    unfold arrive
    dsimp only
    rw [ht, queuePacket_of_not_throttled ht]
    rfl

/-- **What a round does**: nothing, the end of the loop, or the body for the front. -/
theorem State.round_cases (now : ℕ) (e : Effect) : (s.isIdle = true ∧ s.round proto now e = s) ∨
    (∃ filter first deletePacket, s.control = .updating filter first deletePacket ∧
      (∀ p rest, s.recvQueue = p :: rest → s.continues filter first p = false) ∧
      s.round proto now e = { s with control := .idle }) ∨
    (∃ filter first deletePacket p rest, s.control = .updating filter first deletePacket ∧
      s.recvQueue = p :: rest ∧ s.continues filter first p = true ∧ s.round proto now e =
        { s with recvQueue := rest }.body proto filter first deletePacket now e p) := by
  unfold round
  split
  · next hc => exact .inl ⟨by rw [isIdle, hc], rfl⟩
  · next filter first del hc hq =>
      refine .inr (.inl ⟨filter, first, del, hc, fun p rest h => ?_, rfl⟩)
      rw [hq] at h
      cases h
  next filter first del p rest hc hq =>
    split_ifs with hgo
    · exact .inr (.inr ⟨filter, first, del, p, rest, hc, hq, hgo, rfl⟩)
    refine .inr (.inl ⟨filter, first, del, hc, fun p' rest' h => ?_, rfl⟩)
    rw [hq] at h
    obtain ⟨rfl, -⟩ := cons.inj h
    exact Bool.eq_false_iff.mpr hgo

variable {e : Effect}

/-- **A round that puts a packet back.** -/
theorem State.round_delay {filter : Filter} {first : Option ℕ} {deletePacket : Bool}
    (hc : s.control = .updating filter first deletePacket)
    (hq : s.recvQueue = p :: rest) (hgo : s.continues filter first p = true)
    (hlive : p.id ∉ s.deleted) (hv : s.client.verdict (proto.opcodeTable p.opcode).status = .delay)
    (hfree : s.throttled proto now p = false) : s.round proto now e = { s with
        throttler := (s.throttler.mustDiscard proto.opcodePerSecond now p.opcode).2
        recvQueue := rest ++ [p], control := .updating filter (some (first.getD p.id)) false } := by
  obtain ⟨s1, hs1⟩ : ∃ s1 : State, s1 = { s with recvQueue := rest } := ⟨_, rfl⟩
  have hread : s1.read p = s1 := read_of_live (by rw [hs1]; exact hlive)
  have hfree1 : s1.throttled proto now p = false := by rw [hs1]; exact hfree
  have hback := reenqueue_of_not_throttled (by rw [hs1]; exact hlive) hfree1
  unfold round
  rw [hc, hq]
  dsimp only
  rw [if_pos hgo, ← hc, ← hs1]
  unfold body
  dsimp only
  rw [hread, hs1]
  rw [hv, ← hs1, hback, hs1]

theorem State.finish_eq (fate : Fate) (deletePacket : Bool) : s.finish p fate deletePacket =
      { s with
        fates := (p, fate) :: s.fates
        deleted := if deletePacket then p.id :: s.deleted else s.deleted } := by
  cases deletePacket with
  | true => rfl
  | false => rfl

theorem Effect.apply_player (e : Effect) {c : Client} (h : c.player = none) :
    (e.apply c).player = none := by
  unfold Effect.apply
  rw [h]
  split_ifs <;> rfl

/-- **A round that meets its condition** leaves the session alone, ends the loop, gives the front
its fate, or puts it back to the end. -/
theorem Kept.round_cases (h : Kept s) (hmeets : Meets proto s (.round now e)) :
    (s.isIdle = true ∧ s.round proto now e = s) ∨
    (∃ filter first deletePacket, s.control = .updating filter first deletePacket ∧
      (∀ p rest, s.recvQueue = p :: rest → s.continues filter first p = false) ∧
      s.round proto now e = { s with control := .idle }) ∨
    (∃ filter first deletePacket p rest, s.control = .updating filter first deletePacket ∧
      s.recvQueue = p :: rest ∧ s.continues filter first p = true ∧
      ((∃ fate client, s.client.verdict (proto.opcodeTable p.opcode).status =
            (match fate with | .processed => .process | .rejected => .reject) ∧
          (s.client.player = none → client.player = none) ∧
          s.round proto now e = { s with
              recvQueue := rest, client, fates := (p, fate) :: s.fates
              deleted := if deletePacket then p.id :: s.deleted else s.deleted }) ∨
        (s.client.verdict (proto.opcodeTable p.opcode).status = .delay ∧
          ∃ throttler, s.round proto now e = { s with
              throttler, recvQueue := rest ++ [p]
              control := .updating filter (some (first.getD p.id)) false }))) := by
  rcases State.round_cases now e with hidle | hstop | ⟨filter, first, del, p, rest, hc, hq, hgo, heq⟩
  · exact .inl hidle
  · exact .inr (.inl hstop)
  refine .inr (.inr ⟨filter, first, del, p, rest, hc, hq, hgo, ?_⟩)
  have hlive : p.id ∉ s.deleted := h.live p (by rw [hq]; exact mem_cons_self)
  unfold Meets at hmeets
  rw [hc, hq] at hmeets
  have hbody : { s with recvQueue := rest }.read p = { s with recvQueue := rest } :=
    read_of_live hlive
  cases hv : s.client.verdict (proto.opcodeTable p.opcode).status with
  | process =>
    refine .inl ⟨.processed, ({ s with recvQueue := rest }.handle proto p e).client, rfl, ?_, ?_⟩
    · intro hnone
      refine e.apply_player ?_
      split_ifs <;> exact hnone
    rw [heq]
    unfold State.body
    dsimp only
    rw [hbody]
    rw [hv]
    exact finish_eq _ _
  | reject =>
    refine .inl ⟨.rejected, s.client, rfl, id, ?_⟩
    rw [heq]
    unfold State.body
    dsimp only
    rw [hbody]
    rw [hv]
    exact finish_eq _ _
  | delay =>
    exact .inr ⟨rfl, _, round_delay hc hq hgo hlive hv (hmeets.1 hgo hv)⟩

/-- **One packet in one place**, kept by every step that meets its condition. -/
theorem Kept.step (h : Kept s) {op : Op} (hmeets : Meets proto s op) :
    Kept (WorldSession.step proto s op) := by
  cases op with
  | queuePacket now opcode =>
    show Kept (s.arrive proto now opcode)
    rcases arrive_cases now opcode with ⟨-, heq⟩ | ⟨-, heq⟩
    · rw [heq]
      refine ⟨h.once, h.newest, fun p hp => Nat.lt_succ_of_lt (h.accepted_lt p hp), ?_, ?_, h.fresh⟩
      · rintro i (_ | ⟨_, hi⟩)
        · exact Nat.lt_succ_self _
        · exact Nat.lt_succ_of_lt (h.deleted_lt i hi)
      intro p hp
      have hlt := h.accepted_lt p (h.mem_accepted hp)
      rw [mem_cons, not_or]
      exact ⟨Nat.ne_of_lt hlt, h.live p hp⟩
    rw [heq]
    refine ⟨?_, ?_, ?_, fun i hi => Nat.lt_succ_of_lt (h.deleted_lt i hi), ?_, h.fresh⟩
    · refine (h.once.cons _).trans ?_
      rw [append_assoc]
      exact perm_middle.symm
    · refine pairwise_cons.mpr ⟨fun i hi => ?_, h.newest⟩
      obtain ⟨p, hp, rfl⟩ := mem_map.mp hi
      exact h.accepted_lt p hp
    · rintro p (_ | ⟨_, hp⟩)
      · exact Nat.lt_succ_self _
      · exact Nat.lt_succ_of_lt (h.accepted_lt p hp)
    intro p hp
    rcases mem_append.mp hp with hp | hp
    · exact h.live p hp
    obtain rfl := mem_singleton.mp hp
    exact fun hi => Nat.lt_irrefl _ (h.deleted_lt _ hi)
  | update filter | client c =>
    dsimp only [WorldSession.step]
    split
    · exact { h with }
    · exact h
  | round now e =>
    show Kept (s.round proto now e)
    rcases h.round_cases hmeets with ⟨-, heq⟩ | ⟨_, _, _, -, -, heq⟩ |
      ⟨filter, first, del, p, rest, hc, hq, -, ⟨fate, client, -, -, heq⟩ | ⟨-, t, heq⟩⟩
    · rw [heq]
      exact h
    · rw [heq]
      exact { h with }
    · have hnodup := h.queue_nodup
      have honce := h.once
      rw [hq] at hnodup honce
      have hmem : p ∈ s.recvQueue := hq ▸ mem_cons_self
      have hlt := h.accepted_lt p (h.mem_accepted hmem)
      rw [heq]
      refine ⟨?_, h.newest, h.accepted_lt, ?_, ?_, h.fresh⟩
      · exact honce.trans perm_middle.symm
      · dsimp only
        split_ifs
        · rintro i (_ | ⟨_, hi⟩)
          · exact hlt
          · exact h.deleted_lt i hi
        · exact h.deleted_lt
      intro q hqm
      have hold := h.live q (hq ▸ mem_cons_of_mem _ hqm)
      have hne : q.id ≠ p.id := by
        intro hid
        exact (nodup_cons.mp hnodup).1 (hid ▸ mem_map_of_mem hqm)
      split_ifs
      · rw [mem_cons, not_or]
        exact ⟨hne, hold⟩
      · exact hold
    have hperm : (rest ++ [p]).Perm s.recvQueue := by
      rw [hq]
      exact perm_append_singleton p rest
    rw [heq]
    refine { h with once := h.once.trans (hperm.symm.append_right _), live := ?_ }
    exact fun q hqm => h.live q (hperm.mem_iff.mp hqm)
  | close => exact { h with }

/-! ### The order of the `STATUS_LOGGEDIN` packets -/

@[simp] theorem Protocol.loggedIns_append (as bs : List Packet) :
    proto.loggedIns (as ++ bs) = proto.loggedIns as ++ proto.loggedIns bs := by
  simp [Protocol.loggedIns]

theorem Protocol.loggedIns_cons (a : Packet) (as : List Packet) : proto.loggedIns (a :: as) =
      if proto.isLoggedIn a then a.id :: proto.loggedIns as else proto.loggedIns as := by
  unfold Protocol.loggedIns
  cases h : proto.isLoggedIn a with
  | true => rw [filter_cons_of_pos h, map_cons, if_pos rfl]
  | false => rw [filter_cons_of_neg (by simp [h]), if_neg (by simp)]

theorem Protocol.mem_loggedIns {as : List Packet} {i : ℕ} (h : i ∈ proto.loggedIns as) :
    ∃ a ∈ as, a.id = i := by
  obtain ⟨a, ha, rfl⟩ := mem_map.mp h
  exact ⟨a, mem_of_mem_filter ha, rfl⟩

theorem Protocol.loggedIns_sublist {as bs : List Packet} (h : as.Sublist bs) :
    (proto.loggedIns as).Sublist (proto.loggedIns bs) := (h.filter _).map _

/-- The queue of a loop that has put a packet back: first what it has still to look at, then
what it has put back, the packet `first` before the others. -/
structure PutBack (proto : Protocol) (queue : List Packet) (first : ℕ) (todo back : List Packet) :
    Prop where
  queue : queue = todo ++ back
  head : (back.map Packet.id).head? = some first
  fresh : ∀ p ∈ todo, p.id ≠ first
  sorted : (proto.loggedIns (back ++ todo)).Pairwise (· < ·)

section PutBack

variable {queue todo back : List Packet} {first : ℕ}

theorem PutBack.takeWhile_eq (h : PutBack proto queue first todo back) :
    queue.takeWhile (·.id ≠ first) = todo := by
  rw [h.queue, takeWhile_append_of_pos fun p hp => by simpa using h.fresh p hp]
  cases back with
  | nil => cases h.head
  | cons p back =>
    have hid : p.id = first := some.inj h.head
    rw [takeWhile_cons_of_neg (by simp [hid]), append_nil]

/-- The front of such a queue is the first delayed packet, or still to be looked at. -/
theorem PutBack.front (h : PutBack proto (p :: rest) first todo back) (hne : p.id ≠ first) :
    ∃ todo', todo = p :: todo' ∧ rest = todo' ++ back := by
  have hqueue := h.queue
  cases todo with
  | nil =>
    have hhead := h.head
    rw [nil_append] at hqueue
    rw [← hqueue] at hhead
    exact (hne (some.inj hhead)).elim
  | cons q todo =>
    obtain ⟨rfl, htail⟩ := cons.inj hqueue
    exact ⟨todo, rfl, htail⟩

theorem PutBack.drop (h : PutBack proto (p :: rest) first todo back) (hne : p.id ≠ first) :
    ∃ todo', PutBack proto rest first todo' back := by
  obtain ⟨todo', rfl, hrest⟩ := h.front hne
  refine ⟨todo', hrest, h.head, fun q hq => h.fresh q (mem_cons_of_mem _ hq), ?_⟩
  refine h.sorted.sublist (proto.loggedIns_sublist ?_)
  exact (sublist_cons_self p todo').append_left back

theorem PutBack.head_append (h : PutBack proto queue first todo back) :
    ((back ++ [p]).map Packet.id).head? = some first := by
  have hhead := h.head
  cases back with
  | nil => cases hhead
  | cons q back => exact hhead

theorem PutBack.delay (h : PutBack proto (p :: rest) first todo back) (hne : p.id ≠ first) :
    ∃ todo', todo = p :: todo' ∧ PutBack proto (rest ++ [p]) first todo' (back ++ [p]) := by
  obtain ⟨todo', rfl, hrest⟩ := h.front hne
  refine ⟨todo', rfl, ?_, h.head_append, fun q hq => h.fresh q (mem_cons_of_mem _ hq), ?_⟩
  · rw [hrest, append_assoc]
  have hsorted := h.sorted
  rw [show back ++ p :: todo' = (back ++ [p]) ++ todo' by simp] at hsorted
  exact hsorted

end PutBack

/-- How the queue is ordered while the socket is open. -/
def QueueOrder (proto : Protocol) (s : State) : Prop :=
  match s.control with
  | .updating _ (some first) _ =>
    s.client.player = none ∧ ∃ todo back, PutBack proto s.recvQueue first todo back
  | _ => (proto.loggedIns s.recvQueue).Pairwise (· < ·)

/-- **The order of arrival is kept.** -/
structure Ordered (proto : Protocol) (s : State) : Prop where
  processed : (proto.loggedIns s.processed).Pairwise (· > ·)
  before : s.client.closed = false →
    ∀ i ∈ proto.loggedIns s.processed, ∀ j ∈ proto.loggedIns s.recvQueue, i < j
  queue : s.client.closed = false → QueueOrder proto s

theorem Kept.queued_lt (h : Kept s) {i : ℕ} (hi : i ∈ proto.loggedIns s.recvQueue) : i < s.next := by
  obtain ⟨p, hp, rfl⟩ := proto.mem_loggedIns hi
  exact h.accepted_lt p (h.mem_accepted hp)

theorem Kept.processed_lt (h : Kept s) {i : ℕ} (hi : i ∈ proto.loggedIns s.processed) :
    i < s.next := by
  obtain ⟨p, hp, rfl⟩ := proto.mem_loggedIns hi
  obtain ⟨f, hf, rfl⟩ := mem_map.mp hp
  have hmem : f.1 ∈ s.fates.map Prod.fst := mem_map_of_mem (mem_of_mem_filter hf)
  exact h.accepted_lt f.1 (h.once.mem_iff.mpr (mem_append_right _ hmem))

/-- **An accepted arrival** is later than everything. -/
theorem Ordered.arrive (h : Ordered proto s) (hkept : Kept s) {x : Packet} (hx : x.id = s.next)
    (hmeets : proto.isLoggedIn x = false ∨ s.waiting proto = []) {s' : State}
    (hqueue : s'.recvQueue = s.recvQueue ++ [x]) (hcontrol : s'.control = s.control)
    (hclient : s'.client = s.client) (hfates : s'.fates = s.fates) : Ordered proto s' := by
  have hprocessed : s'.processed = s.processed := by rw [State.processed, hfates]; rfl
  have hsingle : ∀ i ∈ proto.loggedIns [x], i = s.next := by
    intro i hi
    obtain ⟨a, ha, rfl⟩ := proto.mem_loggedIns hi
    rw [mem_singleton.mp ha, hx]
  have hone : (proto.loggedIns [x]).Pairwise (· < ·) := by
    rw [proto.loggedIns_cons]
    split_ifs
    · exact pairwise_singleton _ _
    · exact Pairwise.nil
  refine ⟨hprocessed ▸ h.processed, fun hopen i hi j hj => ?_, fun hopen => ?_⟩
  · rw [hclient] at hopen
    rw [hprocessed] at hi
    rw [hqueue, proto.loggedIns_append] at hj
    rcases mem_append.mp hj with hj | hj
    · exact h.before hopen i hi j hj
    rw [hsingle j hj]
    exact hkept.processed_lt hi
  rw [hclient] at hopen
  have hold := h.queue hopen
  unfold QueueOrder at hold ⊢
  rw [hcontrol, hclient, hqueue]
  split
  · next filter first del hc =>
      rw [hc] at hold
      obtain ⟨hnone, todo, back, hback⟩ := hold
      refine ⟨hnone, todo, back ++ [x], ?_, ?_, hback.fresh, ?_⟩
      · rw [hback.queue, append_assoc]
      · exact hback.head_append
      have hsorted := hback.sorted
      rw [proto.loggedIns_append] at hsorted
      rw [proto.loggedIns_append, proto.loggedIns_append]
      rcases hmeets with hnot | hwait
      · have hnil : proto.loggedIns [x] = [] := by
          rw [proto.loggedIns_cons, hnot]
          rfl
        rw [hnil, append_nil]
        exact hsorted
      have htodo : proto.loggedIns todo = [] := by
        unfold waiting ahead at hwait
        rw [hc] at hwait
        rw [← hback.takeWhile_eq]
        exact hwait
      rw [htodo, append_nil] at hsorted ⊢
      refine pairwise_append.mpr ⟨hsorted, hone, fun i hi j hj => ?_⟩
      have hmem : i ∈ proto.loggedIns s.recvQueue := by
        rw [hback.queue, proto.loggedIns_append]
        exact mem_append_right _ hi
      rw [hsingle j hj]
      exact hkept.queued_lt hmem
  next hother =>
    have hsorted : (proto.loggedIns s.recvQueue).Pairwise (· < ·) := by
      split at hold
      · next filter first del hc => exact (hother filter first del hc).elim
      · exact hold
    rw [proto.loggedIns_append]
    refine pairwise_append.mpr ⟨hsorted, hone, fun i hi j hj => ?_⟩
    rw [hsingle j hj]
    exact hkept.queued_lt hi

theorem continues_iff {filter : Filter} {first : Option ℕ} : s.continues filter first p = true ↔
      s.client.closed = false ∧ some p.id ≠ first ∧ filter s.client p = true := by
  simp [continues, and_assoc]

variable {del : Bool}

/-- **The end of the loop**: what was put back is all that is left to sort. -/
theorem Ordered.stop (h : Ordered proto s)
    (hmeets : Meets proto s (.round now e)) {filter : Filter} {first : Option ℕ}
    (hc : s.control = .updating filter first del)
    (hstop : ∀ p rest, s.recvQueue = p :: rest → s.continues filter first p = false) :
    Ordered proto { s with control := .idle } := by
  refine ⟨h.processed, h.before, fun hopen => ?_⟩
  have hold := h.queue hopen
  unfold QueueOrder at hold
  rw [hc] at hold
  show (proto.loggedIns s.recvQueue).Pairwise (· < ·)
  cases first with
  | none => exact hold
  | some first =>
    obtain ⟨-, todo, back, hback⟩ := hold
    have hsorted := hback.sorted
    rw [proto.loggedIns_append] at hsorted
    rw [hback.queue, proto.loggedIns_append]
    -- either nothing is left in front of the first delayed packet, or the filter ended the loop
    have htodo : proto.loggedIns todo = [] := by
      cases htodo : todo with
      | nil => rfl
      | cons p todo' =>
        have hq : s.recvQueue = p :: (todo' ++ back) := by rw [hback.queue, htodo]; rfl
        have hne : p.id ≠ first := hback.fresh p (htodo ▸ mem_cons_self)
        have hno : filter s.client p = false := by
          by_contra hyes
          have hgo : s.continues filter (some first) p = true :=
            continues_iff.mpr ⟨hopen, fun heq => hne (some.inj heq), by simpa using hyes⟩
          rw [hstop p _ hq] at hgo
          cases hgo
        unfold Meets at hmeets
        rw [hc, hq] at hmeets
        have hwait := hmeets.2 hno
        unfold waiting ahead at hwait
        rw [hc] at hwait
        rw [← htodo, ← hback.takeWhile_eq]
        exact hwait
    rw [htodo, append_nil] at hsorted
    rw [htodo, nil_append]
    exact hsorted

variable {c : Client}

theorem verdict_process_of_loggedIn (hlogged : proto.isLoggedIn p = true)
    (hv : c.verdict (proto.opcodeTable p.opcode).status = .process) : c.player ≠ none := by
  have hstatus : (proto.opcodeTable p.opcode).status = .loggedIn := by
    simpa [Protocol.isLoggedIn] using hlogged
  intro hnone
  rw [hstatus] at hv
  unfold Client.verdict at hv
  rw [hnone] at hv
  split_ifs at hv

theorem verdict_delay {status : Status} (hv : c.verdict status = .delay) :
    status = .loggedIn ∧ c.player = none := by
  unfold Client.verdict at hv
  split at hv
  · split at hv
    · next hnone => exact ⟨rfl, hnone⟩
    · split_ifs at hv
  · split_ifs at hv
  · split at hv
    · cases hv
    · split_ifs at hv
  · split_ifs at hv
  · cases hv
  · cases hv

/-- **A packet leaves the queue.** -/
theorem Ordered.fate (h : Ordered proto s) {filter : Filter} {first : Option ℕ}
    (hc : s.control = .updating filter first del) (hq : s.recvQueue = p :: rest)
    (hgo : s.continues filter first p = true) {fate : Fate} {client : Client}
    (hv : s.client.verdict (proto.opcodeTable p.opcode).status =
      (match fate with | .processed => .process | .rejected => .reject))
    (hplayer : s.client.player = none → client.player = none) {deleted : List ℕ} :
    Ordered proto
      { s with recvQueue := rest, client, fates := (p, fate) :: s.fates, deleted } := by
  obtain ⟨hopen, hfirst, -⟩ := continues_iff.mp hgo
  have hold := h.queue hopen
  have hbefore := h.before hopen
  unfold QueueOrder at hold
  rw [hc] at hold
  have hrest : ∀ j ∈ proto.loggedIns rest, j ∈ proto.loggedIns s.recvQueue := fun j hj =>
    (proto.loggedIns_sublist (hq ▸ sublist_cons_self p rest)).subset hj
  -- a processed `STATUS_LOGGEDIN` packet is older than what is still queued
  have hfront : proto.isLoggedIn p = true → fate = .processed →
      ∀ j ∈ proto.loggedIns rest, p.id < j := by
    rintro hlogged rfl
    have hsome := verdict_process_of_loggedIn hlogged hv
    cases first with
    | some first => exact (hsome hold.1).elim
    | none =>
      rw [hq, proto.loggedIns_cons, if_pos hlogged] at hold
      exact (pairwise_cons.mp hold).1
  have hprocessed : proto.loggedIns (State.processed
        { s with recvQueue := rest, client, fates := (p, fate) :: s.fates, deleted }) =
      if proto.isLoggedIn p = true ∧ fate = .processed then p.id :: proto.loggedIns s.processed
      else proto.loggedIns s.processed := by
    unfold State.processed
    cases fate with
    | processed =>
      rw [filter_cons_of_pos (by simp), map_cons, proto.loggedIns_cons]
      simp
    | rejected =>
      simp
  refine ⟨?_, fun _ i hi j hj => ?_, fun _ => ?_⟩
  · rw [hprocessed]
    split_ifs with hnew
    · refine pairwise_cons.mpr ⟨fun i hi => ?_, h.processed⟩
      refine hbefore i hi p.id ?_
      rw [hq, proto.loggedIns_cons, if_pos hnew.1]
      exact mem_cons_self
    · exact h.processed
  · rw [hprocessed] at hi
    split_ifs at hi with hnew
    · rcases mem_cons.mp hi with rfl | hi
      · exact hfront hnew.1 hnew.2 j hj
      · exact hbefore i hi j (hrest j hj)
    · exact hbefore i hi j (hrest j hj)
  unfold QueueOrder
  rw [hc]
  cases first with
  | none =>
    exact hold.sublist (proto.loggedIns_sublist (hq ▸ sublist_cons_self p rest))
  | some first =>
    obtain ⟨hnone, todo, back, hback⟩ := hold
    rw [hq] at hback
    obtain ⟨todo', hback'⟩ := hback.drop fun heq => hfirst (congrArg some heq)
    exact ⟨hplayer hnone, todo', back, hback'⟩

/-- **A packet is put back.** -/
theorem Ordered.delay (h : Ordered proto s) (hkept : Kept s) {filter : Filter} {first : Option ℕ}
    (hc : s.control = .updating filter first del) (hq : s.recvQueue = p :: rest)
    (hgo : s.continues filter first p = true)
    (hv : s.client.verdict (proto.opcodeTable p.opcode).status = .delay) {throttler : Throttler} :
    Ordered proto { s with
        throttler, recvQueue := rest ++ [p]
        control := .updating filter (some (first.getD p.id)) false } := by
  obtain ⟨hopen, hfirst, -⟩ := continues_iff.mp hgo
  have hold := h.queue hopen
  unfold QueueOrder at hold
  rw [hc] at hold
  refine ⟨h.processed, fun _ i hi j hj => ?_, fun _ => ?_⟩
  · refine h.before hopen i hi j ?_
    rw [hq]
    rw [show p :: rest = [p] ++ rest from rfl, proto.loggedIns_append]
    rw [proto.loggedIns_append] at hj
    exact mem_append.mpr (mem_append.mp hj).symm
  refine ⟨(verdict_delay hv).2, ?_⟩
  cases first with
  | none =>
    refine ⟨rest, [p], rfl, rfl, fun q hqm hid => ?_, ?_⟩
    · have hnodup := hkept.queue_nodup
      rw [hq, map_cons, nodup_cons] at hnodup
      have hid : q.id = p.id := hid
      exact hnodup.1 (hid ▸ mem_map_of_mem hqm)
    rw [hq] at hold
    exact hold
  | some first =>
    obtain ⟨-, todo, back, hback⟩ := hold
    rw [hq] at hback
    obtain ⟨todo', -, hback'⟩ := hback.delay fun heq => hfirst (congrArg some heq)
    exact ⟨todo', back ++ [p], hback'⟩

/-- **Every step** keeps the order of the packets that are not answered. -/
theorem Ordered.step (h : Ordered proto s) (hkept : Kept s) {op : Op} (hmeets : Meets proto s op) :
    Ordered proto (WorldSession.step proto s op) := by
  cases op with
  | queuePacket now opcode =>
    show Ordered proto (s.arrive proto now opcode)
    rcases arrive_cases now opcode with ⟨-, heq⟩ | ⟨hfree, heq⟩
    · rw [heq]
      exact { h with }
    rw [heq]
    refine h.arrive hkept (x := ⟨s.next, opcode⟩) rfl ?_ rfl rfl rfl rfl
    rcases hmeets with hthrottled | hmeets
    · rw [hfree] at hthrottled
      cases hthrottled
    · exact hmeets
  | update filter =>
    dsimp only [WorldSession.step]
    split
    · next hc =>
        refine ⟨h.processed, h.before, fun hopen => ?_⟩
        have hold := h.queue hopen
        unfold QueueOrder at hold
        rw [hc] at hold
        exact hold
    · exact h
  | round now e =>
    show Ordered proto (s.round proto now e)
    rcases hkept.round_cases hmeets with ⟨-, heq⟩ | ⟨filter, first, del, hc, hstop, heq⟩ |
      ⟨filter, first, del, p, rest, hc, hq, hgo, ⟨fate, client, hv, hplayer, heq⟩ | ⟨hv, t, heq⟩⟩
    · rw [heq]
      exact h
    · rw [heq]
      exact h.stop hmeets hc hstop
    · rw [heq]
      exact h.fate hc hq hgo hv hplayer
    rw [heq]
    exact h.delay hkept hc hq hgo hv
  | client c =>
    dsimp only [WorldSession.step]
    split
    · next hc =>
        have hopen : ∀ b : Bool, (s.client.closed || b) = false → s.client.closed = false :=
          fun b hb => (Bool.or_eq_false_iff.mp hb).1
        refine ⟨h.processed, fun ho => h.before (hopen _ ho), fun ho => ?_⟩
        have hold := h.queue (hopen _ ho)
        unfold QueueOrder at hold ⊢
        rw [hc] at hold ⊢
        exact hold
    · exact h
  | close =>
    refine ⟨h.processed, fun ho => ?_, fun ho => ?_⟩ <;> cases ho

/-! ### The rounds of a loop -/

/-- How many more times the condition of the packet loop is looked at. -/
def State.left (s : State) : ℕ :=
  match s.control with
  | .idle => 0
  | .updating _ none _ => s.recvQueue.length + 1
  | .updating _ (some first) _ => (s.ahead first).length + 1

theorem State.left_le (s : State) : s.left ≤ s.recvQueue.length + 1 := by
  unfold left
  split
  · omega
  · exact Nat.le_refl _
  · exact Nat.succ_le_succ (takeWhile_sublist _).length_le

theorem State.isIdle_of_left (h : s.left = 0) : s.isIdle = true := by
  unfold left at h
  unfold isIdle
  split at h
  · next hc => rw [hc]
  · cases h
  · cases h

/-- **Every round brings the loop closer to its end.** -/
theorem State.left_round (h : Ordered proto s) (hkept : Kept s)
    (hmeets : Meets proto s (.round now e)) : (s.round proto now e).left ≤ s.left - 1 := by
  rcases hkept.round_cases hmeets with ⟨hidle, heq⟩ | ⟨filter, first, del, hc, hstop, heq⟩ |
    ⟨filter, first, del, p, rest, hc, hq, hgo, ⟨fate, client, hv, hplayer, heq⟩ | ⟨hv, t, heq⟩⟩
  · have hleft : s.left = 0 := by
      unfold isIdle at hidle
      unfold left
      split at hidle
      · next hc => rw [hc]
      · cases hidle
    rw [heq]
    exact Nat.le_trans (Nat.le_of_eq hleft) (Nat.zero_le _)
  · rw [heq]
    exact Nat.zero_le _
  · obtain ⟨-, hfirst, -⟩ := continues_iff.mp hgo
    rw [heq]
    unfold left ahead
    rw [hc, hq]
    cases first with
    | none => exact Nat.le_refl _
    | some first =>
      have hne : p.id ≠ first := fun heq => hfirst (congrArg some heq)
      dsimp only
      rw [takeWhile_cons_of_pos (by simpa using hne)]
      exact Nat.le_refl _
  obtain ⟨hopen, hfirst, -⟩ := continues_iff.mp hgo
  have hold := h.queue hopen
  unfold QueueOrder at hold
  rw [hc] at hold
  rw [heq]
  unfold left ahead
  rw [hc]
  cases first with
  | none =>
    have hlen : ((rest ++ [p]).takeWhile (·.id ≠ p.id)).length ≤ rest.length := by
      rw [takeWhile_append]
      split_ifs
      · simp
      · exact (takeWhile_sublist _).length_le
    rw [hq]
    exact Nat.succ_le_succ hlen
  | some first =>
    obtain ⟨-, todo, back, hback⟩ := hold
    have hne : p.id ≠ first := fun heq => hfirst (congrArg some heq)
    have hahead := hback.takeWhile_eq
    rw [hq] at hback
    obtain ⟨todo', rfl, hback'⟩ := hback.delay hne
    dsimp only [getD_some]
    rw [hahead, hback'.takeWhile_eq]
    exact Nat.le_refl _

/-! ### Runs -/

theorem Kept.sound (h : Kept s) (hordered : Ordered proto s) : Sound proto s := by
  refine ⟨h.once, h.distinct, hordered.processed, fun hidle hopen => ?_, h.fresh⟩
  have hqueue := hordered.queue hopen
  unfold QueueOrder at hqueue
  unfold isIdle at hidle
  split at hidle
  · next hc =>
      rw [hc] at hqueue
      exact hqueue
  · cases hidle

theorem kept_start : Kept {} :=
  ⟨List.Perm.refl _, Pairwise.nil, nofun, nofun,
    nofun, rfl⟩

theorem ordered_start : Ordered proto {} :=
  ⟨Pairwise.nil, nofun, fun _ => Pairwise.nil⟩

/-- **A packet loop ends**: rounds that meet their condition bring it to its end. -/
theorem rounds_end (rounds : List (ℕ × Effect)) :
    ∀ s : State, Kept s → Ordered proto s → s.left ≤ rounds.length →
      Along (step proto) (Meets proto) s (rounds.map fun r => .round r.1 r.2) →
      ((rounds.map fun r => Op.round r.1 r.2).foldl (step proto) s).isIdle = true := by
  induction rounds with
  | nil =>
    intro s _ _ hleft _
    exact isIdle_of_left (Nat.le_zero.mp hleft)
  | cons r rounds ih =>
    rintro s hkept hordered hleft ⟨hmeets, hrest⟩
    refine ih _ (hkept.step hmeets) (hordered.step hkept hmeets) ?_ hrest
    have hround := left_round hordered hkept hmeets
    rw [length_cons] at hleft
    show (s.round proto r.1 r.2).left ≤ rounds.length
    omega

/-- **The packets of a session.**  In every run whose steps meet their condition, every accepted
packet is processed once, rejected once or still queued, `STATUS_LOGGEDIN` packets keep their
order and no deleted packet is read; and a packet loop ends after at most one more round than
there are packets in the queue. -/
theorem packets_along (proto : Protocol) (ops : List Op)
    (hops : Along (step proto) (Meets proto) {} ops) :
    Along (step proto) (fun s _ => Sound proto s) {} ops ∧
      ∀ s, s = ops.foldl (step proto) {} → Sound proto s ∧
        ∀ rounds : List (ℕ × Effect), s.recvQueue.length < rounds.length →
          Along (step proto) (Meets proto) s (rounds.map fun r => .round r.1 r.2) →
          ((rounds.map fun r => Op.round r.1 r.2).foldl (step proto) s).isIdle = true := by
  have hstep : ∀ s op, Kept s ∧ Ordered proto s → Meets proto s op →
      Kept (step proto s op) ∧ Ordered proto (step proto s op) :=
    fun s op h hmeets => ⟨h.1.step hmeets, h.2.step h.1 hmeets⟩
  have hstart : Kept {} ∧ Ordered proto {} := ⟨kept_start, ordered_start⟩
  refine ⟨Along.of_invariant hstep (fun s _ h _ => h.1.sound h.2) hstart hops, ?_⟩
  rintro s rfl
  obtain ⟨hkept, hordered⟩ := Along.invariant_foldl hstep hstart hops
  refine ⟨hkept.sound hordered, fun rounds hlen halong => ?_⟩
  exact rounds_end rounds _ hkept hordered (Nat.le_trans (left_le _) hlen) halong

/-! ### The delayed packet in the throttler -/

/-- `CMSG_WHO` and `CMSG_SET_SELECTION`. -/
def cmsgWho : ℕ := 0x6C15
def cmsgSetSelection : ℕ := 0x0506

/-- The two opcodes as `OpcodeTable::Initialize` and `World::InitPacketThrottling` have them: the
limit of most opcodes comes from `memset(opcodePerSecond, 1000, …)`. -/
def whoAndSelection : Protocol where
  opcodeTable opcode :=
    if opcode = cmsgWho then ⟨.loggedIn, .threadUnsafe⟩
    else if opcode = cmsgSetSelection then ⟨.loggedIn, .inplace⟩
    else ⟨.unhandled, .inplace⟩
  opcodePerSecond opcode := if opcode = cmsgWho then 1 else 0xE8E8E8E8

/-- A handler that changes nothing of a player in the world. -/
def stays : Effect := ⟨false, true, false, false, false⟩

/-- Both packets come before the player is in the world, the first loop puts them back, the
second one, after the login and in a later second, calls their handlers. -/
def delayedLogin : List Op :=
  [.queuePacket 7 cmsgWho, .queuePacket 7 cmsgSetSelection,
    .update (worldSessionFilter whoAndSelection), .round 8 stays, .round 8 stays, .round 8 stays,
    .client { player := some true }, .update (mapSessionFilter whoAndSelection), .round 9 stays,
    .update (worldSessionFilter whoAndSelection), .round 9 stays, .round 9 stays]

theorem packets_along_delayedLogin :
    Along (step whoAndSelection) (Meets whoAndSelection) {} delayedLogin ∧
      Sound whoAndSelection (delayedLogin.foldl (step whoAndSelection) {}) :=
  ⟨by decide, ((packets_along whoAndSelection delayedLogin (by decide)).2 _ rfl).1⟩

/-- Both packets come and are put back in one second. -/
def sameSecond : List Op :=
  [.queuePacket 7 cmsgWho, .queuePacket 7 cmsgSetSelection,
    .update (worldSessionFilter whoAndSelection), .round 7 stays]

/-- A loop that waits for a packet that is no longer in the queue. -/
structure Waits (s : State) (now : ℕ) : Prop where
  control : s.control = .updating (worldSessionFilter whoAndSelection) (some 0) false
  queue : s.recvQueue = [⟨1, cmsgSetSelection⟩]
  client : s.client = {}
  deleted : s.deleted = [0]
  time : (s.throttler cmsgSetSelection).time < now

theorem Waits.round (h : Waits s now) : Waits (s.round whoAndSelection now stays) (now + 1) := by
  have hne : now ≠ (s.throttler cmsgSetSelection).time := Nat.ne_of_gt h.time
  have hlimit : whoAndSelection.opcodePerSecond cmsgSetSelection ≠ 0 := by decide
  have hfree : s.throttled whoAndSelection now ⟨1, cmsgSetSelection⟩ = false := by
    unfold throttled Throttler.mustDiscard
    rw [if_neg hlimit, if_neg hne]
  have hlive : (1 : ℕ) ∉ s.deleted := by
    rw [h.deleted]
    decide
  have hgo : s.continues (worldSessionFilter whoAndSelection) (some 0) ⟨1, cmsgSetSelection⟩ = true := by
    unfold continues
    rw [h.client]
    rfl
  have hv : s.client.verdict (whoAndSelection.opcodeTable cmsgSetSelection).status = .delay := by
    rw [h.client]
    rfl
  rw [round_delay h.control h.queue hgo hlive hv hfree]
  refine ⟨rfl, rfl, h.client, h.deleted, ?_⟩
  show (((s.throttler.mustDiscard _ now cmsgSetSelection).2) cmsgSetSelection).time < now + 1
  unfold Throttler.mustDiscard
  rw [if_neg hlimit, if_neg hne]
  exact Nat.lt_succ_self now

/-- **A delayed packet is lost, read after its deletion, and waited for without end.**
`CMSG_WHO` and `CMSG_SET_SELECTION` arrive before the player is in the world and `Update` runs
in the same second.  The throttler throws the first one away when it is put back; the loop then
puts the second one back again and again, whatever the number of rounds. -/
theorem delayed_packet_lost :
    let s := sameSecond.foldl (step whoAndSelection) {}
    (s.accepted.map Packet.id = [1, 0] ∧ s.recvQueue.map Packet.id = [1] ∧ s.fates = [] ∧
      s.stale = [0]) ∧
    ∀ n, ((List.range n).foldl (fun s i => step whoAndSelection s (.round (8 + i) stays)) s).isIdle
      = false := by
  refine ⟨by decide, fun n => ?_⟩
  have hwaits : Waits ((List.range n).foldl
      (fun s i => step whoAndSelection s (.round (8 + i) stays))
      (sameSecond.foldl (step whoAndSelection) {})) (8 + n) := by
    induction n with
    | zero =>
      refine ⟨rfl, by decide, by decide, by decide, by decide⟩
    | succ n ih =>
      rw [range_succ, foldl_append]
      exact ih.round
  unfold isIdle
  rw [hwaits.control]

end ZerosCore.WorldSession
