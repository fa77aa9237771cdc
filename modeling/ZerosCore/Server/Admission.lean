/-
# Who waits in the login queue and who is let in

With a player limit `L`, a session should be flagged as waiting exactly if it is in
`m_QueuedPlayer`, once; those who wait should be let in in the order they came; and no
more than `L` sessions of player accounts should be in, not counting those let in
because their account had just disconnected (`Fair`, `InOrder`).

`HasRecentlyDisconnected` computes `difftime(i->second, time(NULL))`, the time of the
disconnect minus the time now.  That is never positive, so it is below every
tolerance: whoever disconnected once is let in over the limit for ever after
(`yesterday_let_in`).  `fair_of_regular` proves everything in every run in which that
test is not asked about an old disconnect.

What carries the proof is that whoever waits does so because `L` others are in:
`Ordered L 0`.  `RemoveQueuedPlayer` is called while the session that goes is still in
`m_sessions`; seen without that session one place may be free (`Ordered L 1`), and the
first in the queue takes it (`Ordered.pop`).
-/

import ZerosCore.Server.LoginQueue
import ZerosCore.Lib.Run
import Mathlib.Algebra.Order.BigOperators.Group.List
import Mathlib.Algebra.Order.Group.Nat

namespace ZerosCore.LoginQueue

open Lib Lib.Keyed List Option Table World

/-! ### What is promised -/

/-- The sessions of player accounts that are in without having been let in for a recent
disconnect. -/
def World.ordinary (w : World) : List WorldSession :=
  w.sessions.rows.filter fun s => !s.inQueue && isPlayerAccount s.security && !s.exempt

/-- **A fair world.** -/
structure Fair (cfg : Config) (w : World) : Prop where
  flagged_iff : ∀ s ∈ w.sessions.rows, s.inQueue ↔ s.ptr ∈ w.queuedPlayer
  once : w.queuedPlayer.Nodup
  waiting : ∀ p ∈ w.queuedPlayer, ∃ s ∈ w.sessions.rows, s.ptr = p
  within_limit : w.ordinary.length ≤ cfg.playerLimit

/-- **Arrival order**: of two sessions that wait, the later one is not let in before the
earlier one.  Addresses grow with the order of arrival. -/
def InOrder (w w' : World) : Prop :=
  ∀ p ∈ w.queuedPlayer, ∀ q ∈ w.queuedPlayer, p < q → q ∉ w'.queuedPlayer →
    (∃ s ∈ w'.sessions.rows, s.ptr = q) → p ∉ w'.queuedPlayer

/-- **The condition.**  If a player account logs in (and is not refused because its old
session is loading) while at least `playerLimit` other accounts have sessions, the
disconnect of that account that is on record is less than the tolerance ago. -/
def Regular (cfg : Config) (w : World) : Event → Prop
  | .add account security loading now => (loading → w.sessions.get? account = none) →
      isPlayerAccount security → cfg.disconnectTolerance ≠ 0 →
      cfg.playerLimit ≤ (w.sessions.erase account).rows.length →
        ∀ t, (account, t) ∈ w.disconnects → now - t < cfg.disconnectTolerance
  | .remove _ _ => True

/-! ### Counting -/

abbrev Sessions := Table WorldSession.account

def active (t : Sessions) (q : List ℕ) : ℕ := t.sum fun s => if s.ptr ∈ q then 0 else 1

/-- Those among them that count against the limit. -/
def counted (t : Sessions) (q : List ℕ) : ℕ :=
  t.sum fun s => if isPlayerAccount s.security ∧ ¬ s.exempt ∧ s.ptr ∉ q then 1 else 0

section Counting

variable {t : Sessions} {q : List ℕ} {s : WorldSession} {p : ℕ}

theorem sum_congr {f g : WorldSession → ℕ} (h : ∀ s ∈ t.rows, f s = g s) : t.sum f = t.sum g :=
  congrArg List.sum (map_congr_left h)

theorem counted_le_active : counted t q ≤ active t q := by
  refine sum_le_sum fun s _ => ?_
  by_cases hs : s.ptr ∈ q
  · simp [hs]
  rw [if_neg hs]
  split_ifs <;> omega

theorem active_nil : active t [] = t.rows.length := by
  simp [active, Table.sum]

theorem active_cons (hinj : ∀ s ∈ t.rows, ∀ s' ∈ t.rows, s.ptr = s'.ptr → s = s')
    (hs : s ∈ t.rows) (hp : s.ptr = p) (hq : p ∉ q) : active t q = active t (p :: q) + 1 := by
  have hget : t.get? s.account = some s := Table.get?_key hs
  unfold active
  rw [Table.sum_erase hget, Table.sum_erase hget]
  have hrest : (t.erase s.account).sum (fun s => if s.ptr ∈ q then 0 else 1) =
      (t.erase s.account).sum fun s => if s.ptr ∈ p :: q then 0 else 1 := by
    refine sum_congr fun s' hs' => ?_
    obtain ⟨hmem, hne⟩ := mem_rows_erase.mp hs'
    have hp' : s'.ptr ≠ p := fun h => hne (by rw [hinj s' hmem s hs (h.trans hp.symm)])
    simp [hp']
  rw [hrest]
  simp [hp, hq]
  omega

theorem length_eq (hinj : ∀ s ∈ t.rows, ∀ s' ∈ t.rows, s.ptr = s'.ptr → s = s')
    (hq : q.Nodup) (hlive : ∀ p ∈ q, ∃ s ∈ t.rows, s.ptr = p) :
    t.rows.length = active t q + q.length := by
  induction q with
  | nil => exact active_nil.symm
  | cons p q ih =>
    obtain ⟨hp, hq⟩ := nodup_cons.mp hq
    obtain ⟨s, hs, hsp⟩ := hlive p mem_cons_self
    rw [ih hq fun p' hp' => hlive p' (mem_cons_of_mem _ hp'), active_cons hinj hs hsp hp,
      length_cons]
    omega

end Counting

/-! ### The invariant -/

/-- **The queue in order**, `slack` places apart. -/
structure Ordered (L slack : ℕ) (t : Sessions) (q : List ℕ) (made : ℕ) : Prop where
  inj : ∀ s ∈ t.rows, ∀ s' ∈ t.rows, s.ptr = s'.ptr → s = s'
  lt_made : ∀ s ∈ t.rows, s.ptr < made
  sorted : q.Pairwise (· < ·)
  live : ∀ p ∈ q, ∃ s ∈ t.rows, s.ptr = p
  flags : ∀ s ∈ t.rows, s.inQueue = decide (s.ptr ∈ q)
  full : q ≠ [] → L ≤ active t q + slack
  bound : counted t q ≤ L

/-- The invariant between two events. -/
def Kept (cfg : Config) (w : World) : Prop :=
  Ordered cfg.playerLimit 0 w.sessions w.queuedPlayer w.made

/-- `SetInQueue`, on the map alone. -/
def flag (t : Sessions) (p : ℕ) (b : Bool) : Sessions :=
  t.filterMap (fun s => some (if s.ptr = p then { s with inQueue := b } else s))
    (account_setInQueue p b)

section Flag

variable {t : Sessions} {q : List ℕ} {s : WorldSession} {p k : ℕ} {b : Bool}

theorem mem_flag : s ∈ (flag t p b).rows ↔
    ∃ s' ∈ t.rows, (if s'.ptr = p then { s' with inQueue := b } else s') = s := by
  unfold flag
  rw [mem_rows_filterMap]
  simp only [some.injEq]

theorem rows_flag : (flag t p b).rows =
    t.rows.map fun s => if s.ptr = p then { s with inQueue := b } else s :=
  congrFun filterMap_eq_map t.rows

theorem sum_flag {f : WorldSession → ℕ} (hf : ∀ s, f { s with inQueue := b } = f s) :
    (flag t p b).sum f = t.sum f := by
  refine sum_filterMap _ fun s _ => ?_
  rw [map_some, getD_some]
  split_ifs
  · exact hf s
  · rfl

theorem active_flag : active (flag t p b) q = active t q := sum_flag fun _ => rfl

theorem counted_flag : counted (flag t p b) q = counted t q := sum_flag fun _ => rfl

theorem erase_flag : (flag t p b).erase k = flag (t.erase k) p b := by
  refine eq_of_rows ?_
  rw [rows_flag]
  show ((flag t p b).rows.filter fun s => s.account ≠ k) = _
  rw [rows_flag, List.filter_map]
  refine congrArg _ (List.filter_congr fun s _ => ?_)
  simp only [Function.comp_apply]
  split_ifs <;> rfl

theorem flag_of_not_live (h : ∀ s ∈ t.rows, s.ptr ≠ p) : flag t p b = t := by
  refine eq_of_rows ?_
  rw [rows_flag]
  conv_rhs => rw [← map_id t.rows]
  exact map_congr_left fun s hs => if_neg (h s hs)

end Flag

/-! ### One place, one session -/

section Ordered

variable {L slack made : ℕ} {t : Sessions} {q : List ℕ} {s : WorldSession} {p k : ℕ}

theorem Ordered.length_eq (h : Ordered L slack t q made) : t.rows.length = active t q + q.length :=
  LoginQueue.length_eq h.inj (h.sorted.imp fun h => Nat.ne_of_lt h) h.live

theorem inj_erase (h : ∀ s ∈ t.rows, ∀ s' ∈ t.rows, s.ptr = s'.ptr → s = s')
    (hs : t.get? k = some s) : ∀ s' ∈ (t.erase k).rows, s'.ptr ≠ s.ptr := by
  intro s' hs' heq
  obtain ⟨hmem, hne⟩ := mem_rows_erase.mp hs'
  obtain ⟨hsmem, hkey⟩ := get?_eq_some.mp hs
  exact hne (by rw [h s' hmem s hsmem heq]; exact hkey)

/-- **A session leaves**: seen without it, one place may be free. -/
theorem Ordered.leave (h : Ordered L 0 t q made) (hs : t.get? k = some s) :
    Ordered L 1 (t.erase k) (q.erase s.ptr) made ∧
      active (t.erase k) (q.erase s.ptr) + (if s.ptr ∈ q then 0 else 1) = active t q := by
  have hnodup : q.Nodup := h.sorted.imp fun h => Nat.ne_of_lt h
  have hother := inj_erase h.inj hs
  have hmem_iff (s' : WorldSession) (hs' : s' ∈ (t.erase k).rows) :
      s'.ptr ∈ q.erase s.ptr ↔ s'.ptr ∈ q := mem_erase_of_ne (hother s' hs')
  have hactive : active t q =
      (if s.ptr ∈ q then 0 else 1) + active (t.erase k) (q.erase s.ptr) := by
    unfold active
    rw [Table.sum_erase hs]
    refine congrArg _ (sum_congr fun s' hs' => ?_)
    simp only [hmem_iff s' hs']
  have hcounted : counted (t.erase k) (q.erase s.ptr) ≤ counted t q := by
    unfold counted
    rw [Table.sum_erase hs]
    refine le_of_eq_of_le (sum_congr fun s' hs' => ?_) (Nat.le_add_left _ _)
    simp only [hmem_iff s' hs']
  refine ⟨⟨fun a ha b hb => h.inj a (Table.mem_rows_erase.mp ha).1 b (Table.mem_rows_erase.mp hb).1,
    fun a ha => h.lt_made a (Table.mem_rows_erase.mp ha).1, h.sorted.sublist erase_sublist,
    fun p hp => ?_, fun a ha => ?_, fun hne => ?_, hcounted.trans h.bound⟩, by omega⟩
  · obtain ⟨hne, hp⟩ := (Nodup.mem_erase_iff hnodup).mp hp
    obtain ⟨a, ha, rfl⟩ := h.live p hp
    refine ⟨a, Table.mem_rows_erase.mpr ⟨ha, fun hkey => hne ?_⟩, rfl⟩
    have : t.get? k = some a := Table.get?_eq_some.mpr ⟨ha, hkey⟩
    rw [some.inj (this.symm.trans hs)]
  · rw [h.flags a (Table.mem_rows_erase.mp ha).1]
    simp only [hmem_iff a ha]
  have hq : q ≠ [] := by
    rintro rfl
    exact hne rfl
  have := h.full hq
  split_ifs at hactive <;> omega

/-- **The first in the queue takes a free place.** -/
theorem Ordered.pop (h : Ordered L 1 t (p :: q) made) (hroom : active t (p :: q) < L) :
    Ordered L 0 (flag t p false) q made := by
  obtain ⟨hlt, hsorted⟩ := pairwise_cons.mp h.sorted
  have hp : p ∉ q := fun hp => Nat.lt_irrefl p (hlt p hp)
  obtain ⟨s, hs, hsp⟩ := h.live p mem_cons_self
  have hactive := active_cons h.inj hs hsp hp
  have hfull := h.full (cons_ne_nil p q)
  refine ⟨fun a ha b hb hab => ?_, fun a ha => ?_, hsorted, fun p' hp' => ?_, fun a ha => ?_,
    fun _ => ?_, ?_⟩
  · obtain ⟨a', ha', rfl⟩ := mem_flag.mp ha
    obtain ⟨b', hb', rfl⟩ := mem_flag.mp hb
    have hab' : a'.ptr = b'.ptr := by
      split_ifs at hab <;> exact hab
    rw [h.inj a' ha' b' hb' hab']
  · obtain ⟨a', ha', rfl⟩ := mem_flag.mp ha
    have := h.lt_made a' ha'
    split_ifs <;> exact this
  · obtain ⟨a, ha, hap⟩ := h.live p' (mem_cons_of_mem _ hp')
    refine ⟨_, mem_flag.mpr ⟨a, ha, rfl⟩, ?_⟩
    split_ifs <;> exact hap
  · obtain ⟨a', ha', rfl⟩ := mem_flag.mp ha
    have hflag := h.flags a' ha'
    split_ifs with hap
    · simp [hap, hp]
    · simpa [hap] using hflag
  · rw [active_flag]
    omega
  rw [counted_flag]
  have := counted_le_active (t := t) (q := q)
  omega

end Ordered

/-! ### `RemoveQueuedPlayer` -/

section Remove

variable {cfg : Config} {w : World} {s : WorldSession} {k : ℕ}

/-- The world between the two halves of `RemoveQueuedPlayer`: the session is out of the queue. -/
def World.unqueue (w : World) (ptr : ℕ) : World :=
  if ptr ∈ w.queuedPlayer then
    { w.setInQueue ptr false with queuedPlayer := w.queuedPlayer.erase ptr } else w

theorem unqueue_spec (h : Kept cfg w) (hs : w.sessions.get? k = some s) :
    (w.unqueue s.ptr).queuedPlayer = w.queuedPlayer.erase s.ptr ∧
      (w.unqueue s.ptr).sessions.erase k = w.sessions.erase k ∧
      (w.unqueue s.ptr).sessions.rows.length = w.sessions.rows.length ∧
      (w.unqueue s.ptr).made = w.made ∧ (w.unqueue s.ptr).disconnects = w.disconnects ∧
      ∃ s', (w.unqueue s.ptr).sessions.get? k = some s' ∧ s'.ptr = s.ptr := by
  unfold unqueue
  split_ifs with hq
  · refine ⟨rfl, ?_, ?_, rfl, rfl, ?_⟩
    · show (flag w.sessions s.ptr false).erase k = _
      rw [erase_flag, flag_of_not_live (inj_erase h.inj hs)]
    · show (flag w.sessions s.ptr false).rows.length = _
      rw [rows_flag, length_map]
    refine ⟨{ s with inQueue := false }, ?_, rfl⟩
    show (flag w.sessions s.ptr false).get? k = _
    rw [flag, get?_filterMap, hs, bind_some, if_pos rfl]
  · exact ⟨(erase_of_not_mem hq).symm, rfl, rfl, rfl, rfl, s, hs, rfl⟩

theorem sessions_eq (h : Kept cfg w) (hs : w.sessions.get? k = some s) :
    (if ¬ s.ptr ∈ w.queuedPlayer ∧ w.getActiveSessionCount ≠ 0 then
      w.getActiveSessionCount - 1 else w.getActiveSessionCount) =
        active (w.sessions.erase k) (w.queuedPlayer.erase s.ptr) := by
  have hcount : w.getActiveSessionCount = active w.sessions w.queuedPlayer := by
    unfold getActiveSessionCount
    rw [Ordered.length_eq h]
    omega
  have hleave := (Ordered.leave h hs).2
  rw [hcount]
  by_cases hq : s.ptr ∈ w.queuedPlayer
  · rw [if_pos hq] at hleave
    rw [if_neg fun h => h.1 hq]
    omega
  rw [if_neg hq] at hleave
  rw [if_pos ⟨hq, by omega⟩]
  omega

theorem removeQueuedPlayer_eq (h : Kept cfg w) (hs : w.sessions.get? k = some s) :
    w.removeQueuedPlayer cfg s.ptr = (decide (s.ptr ∈ w.queuedPlayer),
        if (cfg.playerLimit = 0 ∨ active (w.sessions.erase k) (w.queuedPlayer.erase s.ptr) <
            cfg.playerLimit) ∧ w.queuedPlayer.erase s.ptr ≠ [] then
          (w.unqueue s.ptr).popQueued else w.unqueue s.ptr) := by
  have hq := (unqueue_spec h hs).1
  rw [← sessions_eq h hs]
  unfold removeQueuedPlayer
  dsimp only
  rw [← unqueue, hq]
  split_ifs <;> rfl

/-- **What `RemoveQueuedPlayer` leaves**, seen without the session it is about. -/
structure Left (cfg : Config) (w : World) (s : WorldSession) (k : ℕ) (w' : World) : Prop where
  ordered : Ordered cfg.playerLimit 0 (w'.sessions.erase k) w'.queuedPlayer w.made
  made : w'.made = w.made
  disconnects : w'.disconnects = w.disconnects
  queued : w'.queuedPlayer = w.queuedPlayer.erase s.ptr ∨
    ∃ p, w.queuedPlayer.erase s.ptr = p :: w'.queuedPlayer
  full : s.ptr ∈ w.queuedPlayer → cfg.playerLimit ≤ active (w'.sessions.erase k) w'.queuedPlayer
  still : ∃ s', w'.sessions.get? k = some s' ∧ s'.ptr = s.ptr
  others : ∀ a ∈ (w'.sessions.erase k).rows, a.ptr ≠ s.ptr
  length : (w'.sessions.erase k).rows.length = (w.sessions.erase k).rows.length

theorem left_removeQueuedPlayer (hL : 0 < cfg.playerLimit) (h : Kept cfg w)
    (hs : w.sessions.get? k = some s) : Left cfg w s k (w.removeQueuedPlayer cfg s.ptr).2 := by
  obtain ⟨hqueued, herase, hlength, hmade, hdisc, s', hs', hptr⟩ := unqueue_spec h hs
  obtain ⟨hleave, hactive⟩ := Ordered.leave h hs
  have hothers := inj_erase h.inj hs
  -- whoever waits does so because the others fill the places
  have hwaits : s.ptr ∈ w.queuedPlayer →
      cfg.playerLimit ≤ active (w.sessions.erase k) (w.queuedPlayer.erase s.ptr) := fun hq => by
    have := h.full (ne_nil_of_mem hq)
    rw [if_pos hq] at hactive
    omega
  rw [removeQueuedPlayer_eq h hs]
  dsimp only
  split_ifs with hpop
  · obtain ⟨hroom, hne⟩ := hpop
    have hroom := hroom.resolve_left (Nat.ne_of_gt hL)
    obtain ⟨p, ps, hps⟩ := exists_cons_of_ne_nil hne
    have hpopped : (w.unqueue s.ptr).popQueued =
        { (w.unqueue s.ptr).setInQueue p false with queuedPlayer := ps } := by
      unfold popQueued
      rw [hqueued, hps]
    have hsess : (w.unqueue s.ptr).popQueued.sessions = flag (w.unqueue s.ptr).sessions p false := by
      rw [hpopped]
      rfl
    have herase' : (w.unqueue s.ptr).popQueued.sessions.erase k =
        flag (w.sessions.erase k) p false := by
      rw [hsess, erase_flag, herase]
    have hq' : (w.unqueue s.ptr).popQueued.queuedPlayer = ps := by rw [hpopped]
    rw [hps] at hleave hroom
    refine ⟨?_, ?_, ?_, Or.inr ⟨p, by rw [hq', hps]⟩, fun hq => ?_, ?_, fun a ha => ?_, ?_⟩
    · rw [herase', hq']
      exact hleave.pop hroom
    · rw [hpopped]
      exact hmade
    · rw [hpopped]
      exact hdisc
    · have := hwaits hq
      rw [hps] at this
      omega
    · rw [hsess, flag, get?_filterMap, hs', bind_some]
      refine ⟨_, rfl, ?_⟩
      split_ifs <;> exact hptr
    · rw [herase'] at ha
      obtain ⟨a', ha', rfl⟩ := mem_flag.mp ha
      have := hothers a' ha'
      split_ifs <;> exact this
    · rw [herase', rows_flag, length_map]
  refine ⟨?_, hmade, hdisc, Or.inl hqueued, fun hq => ?_, ⟨s', hs', hptr⟩, ?_, ?_⟩
  · rw [herase, hqueued]
    refine { hleave with full := fun hne => ?_ }
    have : ¬ active (w.sessions.erase k) (w.queuedPlayer.erase s.ptr) < cfg.playerLimit :=
      fun hlt => hpop ⟨Or.inr hlt, hne⟩
    omega
  · rw [herase, hqueued]
    exact hwaits hq
  · rw [herase]
    exact hothers
  · rw [herase]

theorem length_erase {t : Sessions} (hs : t.get? k = some s) :
    t.rows.length = (t.erase k).rows.length + 1 := by
  rw [← active_nil, ← active_nil, active, Table.sum_erase hs]
  simp only [not_mem_nil, if_false]
  rw [Nat.add_comm]
  rfl

/-- **The second call does nothing**: the place is taken already. -/
theorem removeQueuedPlayer_again {w' : World} (hL : 0 < cfg.playerLimit) (h : Kept cfg w)
    (hl : Left cfg w s k w') (d : List (ℕ × ℤ)) :
    ({ w' with disconnects := d } : World).removeQueuedPlayer cfg s.ptr =
      (false, { w' with disconnects := d }) := by
  have hnodup : w.queuedPlayer.Nodup := h.sorted.imp fun h => Nat.ne_of_lt h
  have hnot : s.ptr ∉ w'.queuedPlayer := by
    intro hmem
    have hmem' : s.ptr ∈ w.queuedPlayer.erase s.ptr := by
      rcases hl.queued with heq | ⟨p, heq⟩
      · exact heq ▸ hmem
      · exact heq ▸ mem_cons_of_mem p hmem
    exact ((Nodup.mem_erase_iff hnodup).mp hmem').1 rfl
  obtain ⟨s', hs', -⟩ := hl.still
  have hcount : w'.sessions.rows.length - w'.queuedPlayer.length =
      active (w'.sessions.erase k) w'.queuedPlayer + 1 := by
    rw [length_erase hs', hl.ordered.length_eq]
    omega
  unfold removeQueuedPlayer getActiveSessionCount
  simp only [hnot, if_false, hcount]
  rw [if_neg]
  · simp
  rintro ⟨hroom, hne⟩
  have hroom := hroom.resolve_left (Nat.ne_of_gt hL)
  have hfull := hl.ordered.full hne
  rw [if_pos ⟨not_false, by omega⟩] at hroom
  omega

end Remove

/-! ### A new session -/

section Enter

variable {L made account security : ℕ} {t : Sessions} {q : List ℕ} {cfg : Config} {w : World}

theorem Ordered.not_mem (h : Ordered L 0 t q made) : made ∉ q := fun hmem => by
  obtain ⟨s, hs, hsp⟩ := h.live made hmem
  exact Nat.lt_irrefl made (hsp ▸ h.lt_made s hs)

variable {s : WorldSession}

theorem Ordered.inj_put (h : Ordered L 0 t q made) (hs : s.ptr = made) :
    ∀ a ∈ (t.put s).rows, ∀ b ∈ (t.put s).rows, a.ptr = b.ptr → a = b := by
  intro a ha b hb hab
  rcases mem_rows_put.mp ha with ha | ⟨ha, -⟩
  · rcases mem_rows_put.mp hb with hb | ⟨hb, -⟩
    · rw [ha, hb]
    have := h.lt_made b hb
    rw [ha] at hab
    omega
  rcases mem_rows_put.mp hb with hb | ⟨hb, -⟩
  · have := h.lt_made a ha
    rw [hb] at hab
    omega
  · exact h.inj a ha b hb hab

theorem mem_put_of_mem {a : WorldSession} (hget : t.get? s.account = none) (ha : a ∈ t.rows) :
    a ∈ (t.put s).rows :=
  Table.mem_rows_put.mpr (Or.inr ⟨ha, Table.get?_eq_none.mp hget a ha⟩)

/-- **Let in.** -/
theorem Ordered.letIn {exempt : Bool} (h : Ordered L 0 t q made) (hget : t.get? account = none)
    (hroom : isPlayerAccount security → exempt = false → counted t q + 1 ≤ L) :
    Ordered L 0 (t.put ⟨made, account, security, false, exempt⟩) q (made + 1) := by
  have hnot := h.not_mem
  refine ⟨h.inj_put rfl, fun a ha => ?_, h.sorted, fun p hp => ?_, fun a ha => ?_, fun hne => ?_, ?_⟩
  · rcases mem_rows_put.mp ha with rfl | ⟨ha, -⟩
    · exact Nat.lt_succ_self made
    · exact (h.lt_made a ha).trans (Nat.lt_succ_self made)
  · obtain ⟨a, ha, hap⟩ := h.live p hp
    exact ⟨a, mem_put_of_mem hget ha, hap⟩
  · rcases mem_rows_put.mp ha with rfl | ⟨ha, -⟩
    · simp [hnot]
    · exact h.flags a ha
  · have hfull := h.full hne
    rw [active, sum_put hget]
    exact hfull.trans (Nat.le_add_left _ _)
  have hbound := h.bound
  rw [counted, sum_put hget]
  show _ + counted t q ≤ L
  split_ifs with hc
  · have := hroom hc.1 (by simpa using hc.2.1)
    omega
  · omega

/-- **Made to wait**, because the places are taken. -/
theorem Ordered.wait (h : Ordered L 0 t q made) (hget : t.get? account = none)
    (hfull : L ≤ active t q) :
    Ordered L 0 (flag (t.put ⟨made, account, security, false, false⟩) made true)
      (q ++ [made]) (made + 1) := by
  have hnot := h.not_mem
  have hlt (p : ℕ) (hp : p ∈ q) : p < made := by
    obtain ⟨a, ha, hap⟩ := h.live p hp
    exact hap ▸ h.lt_made a ha
  have hold (a : WorldSession) (ha : a ∈ t.rows) : a.ptr ≠ made := Nat.ne_of_lt (h.lt_made a ha)
  have hmem (a : WorldSession) (ha : a ∈ t.rows) : a.ptr ∈ q ++ [made] ↔ a.ptr ∈ q := by
    simp [hold a ha]
  refine ⟨fun a ha b hb hab => ?_, fun a ha => ?_, ?_, fun p hp => ?_, fun a ha => ?_,
    fun _ => ?_, ?_⟩
  · obtain ⟨a', ha', rfl⟩ := mem_flag.mp ha
    obtain ⟨b', hb', rfl⟩ := mem_flag.mp hb
    have hab' : a'.ptr = b'.ptr := by
      split_ifs at hab <;> exact hab
    rw [h.inj_put rfl a' ha' b' hb' hab']
  · obtain ⟨a', ha', rfl⟩ := mem_flag.mp ha
    have : a'.ptr < made + 1 := by
      rcases mem_rows_put.mp ha' with rfl | ⟨ha', -⟩
      · exact Nat.lt_succ_self made
      · exact (h.lt_made a' ha').trans (Nat.lt_succ_self made)
    split_ifs <;> exact this
  · refine pairwise_append.mpr ⟨h.sorted, pairwise_singleton _ _, fun p hp m hm => ?_⟩
    rw [mem_singleton.mp hm]
    exact hlt p hp
  · have hex : ∃ a ∈ (t.put ⟨made, account, security, false, false⟩).rows, a.ptr = p := by
      rcases mem_append.mp hp with hp | hp
      · obtain ⟨a, ha, hap⟩ := h.live p hp
        exact ⟨a, mem_put_of_mem hget ha, hap⟩
      · exact ⟨_, mem_rows_put.mpr (Or.inl rfl), (mem_singleton.mp hp).symm⟩
    obtain ⟨a, ha, hap⟩ := hex
    refine ⟨_, mem_flag.mpr ⟨a, ha, rfl⟩, ?_⟩
    split_ifs <;> exact hap
  · obtain ⟨a', ha', rfl⟩ := mem_flag.mp ha
    rcases mem_rows_put.mp ha' with rfl | ⟨ha', -⟩
    · simp
    rw [if_neg (hold a' ha'), h.flags a' ha']
    simp only [hmem a' ha']
  · have hsame : active t (q ++ [made]) = active t q :=
      sum_congr fun a ha => by simp only [hmem a ha]
    rw [active_flag, active, sum_put hget]
    show L ≤ _ + active t (q ++ [made]) + 0
    omega
  have hsame : counted t (q ++ [made]) = counted t q :=
    sum_congr fun a ha => by simp only [hmem a ha]
  have hbound := h.bound
  rw [counted_flag, counted, sum_put hget]
  show (if _ ∧ _ ∧ made ∉ q ++ [made] then 1 else 0) + counted t (q ++ [made]) ≤ L
  rw [if_neg fun hc => hc.2.2 (mem_append_right _ (mem_singleton_self made))]
  omega

theorem recentlyDisconnected_true {tolerance : ℕ} {now : ℤ} {l : List (ℕ × ℤ)}
    (h : (recentlyDisconnected tolerance account now l).1 = true) : ∃ t, (account, t) ∈ l := by
  induction l with
  | nil => cases h
  | cons x l ih =>
    obtain ⟨a, t⟩ := x
    rw [recentlyDisconnected] at h
    split_ifs at h with hrecent ha
    · exact ⟨t, by rw [ha]; exact mem_cons_self⟩
    · obtain ⟨t', ht'⟩ := ih h
      exact ⟨t', mem_cons_of_mem _ ht'⟩
    obtain ⟨t', ht'⟩ := ih h
    exact ⟨t', mem_cons_of_mem _ ht'⟩

theorem hasRecentlyDisconnected_spec (cfg : Config) (w : World) (account : ℕ) (now : ℤ) :
    (∃ l, (w.hasRecentlyDisconnected cfg account now).2 = { w with disconnects := l }) ∧
      ((w.hasRecentlyDisconnected cfg account now).1 →
        cfg.disconnectTolerance ≠ 0 ∧ ∃ t, (account, t) ∈ w.disconnects) := by
  unfold hasRecentlyDisconnected
  split_ifs with htol
  · exact ⟨⟨_, rfl⟩, fun h => ⟨htol, recentlyDisconnected_true h⟩⟩
  · exact ⟨⟨w.disconnects, rfl⟩, nofun⟩

theorem rows_length_put (hget : t.get? s.account = none) :
    (t.put s).rows.length = t.rows.length + 1 := by
  show (s :: Keyed.erase WorldSession.account t.rows s.account).length = _
  rw [erase_of_get?_none hget, length_cons]

/-- **The second half of `AddSession_`.**  `decrease` may be false only if `L` sessions are in. -/
theorem Kept.enter (hL : 0 < cfg.playerLimit) (h : Kept cfg w) (account security : ℕ)
    (decrease : Bool) (now : ℤ) (hget : w.sessions.get? account = none)
    (hdec : decrease = false → cfg.playerLimit ≤ active w.sessions w.queuedPlayer)
    (hreg : isPlayerAccount security → cfg.disconnectTolerance ≠ 0 →
      cfg.playerLimit ≤ w.sessions.rows.length →
        ∀ t, (account, t) ∈ w.disconnects → now - t < cfg.disconnectTolerance) :
    Kept cfg (w.enter cfg account security decrease now) ∧
      ((w.enter cfg account security decrease now).queuedPlayer = w.queuedPlayer ∨
        (w.enter cfg account security decrease now).queuedPlayer = w.queuedPlayer ++ [w.made]) ∧
      ∀ a ∈ (w.enter cfg account security decrease now).sessions.rows,
        a.ptr = w.made ∨ ∃ b ∈ w.sessions.rows, b.ptr = a.ptr := by
  have hrows := h.length_eq
  have hcounted := counted_le_active (t := w.sessions) (q := w.queuedPlayer)
  have hlen := rows_length_put (t := w.sessions) (s := ⟨w.made, account, security, false, false⟩) hget
  have hput (s : WorldSession) (hs : s.ptr = w.made) (a : WorldSession)
      (ha : a ∈ (w.sessions.put s).rows) : a.ptr = w.made ∨ ∃ b ∈ w.sessions.rows, b.ptr = a.ptr := by
    rcases mem_rows_put.mp ha with rfl | ⟨ha, -⟩
    · exact Or.inl hs
    · exact Or.inr ⟨a, ha, rfl⟩
  unfold World.enter
  simp only [hlen]
  -- the number compared with the limit
  obtain ⟨n, hn, hn'⟩ : ∃ n, (if decrease = true then w.sessions.rows.length + 1 - 1
      else w.sessions.rows.length + 1) = n ∧
        (n = w.sessions.rows.length ∨ decrease = false ∧ n = w.sessions.rows.length + 1) := by
    cases decrease with
    | true => exact ⟨_, rfl, Or.inl rfl⟩
    | false => exact ⟨_, rfl, Or.inr ⟨rfl, rfl⟩⟩
  rw [hn]
  split_ifs with hlimit hrecent
  · -- let in over the limit
    obtain ⟨⟨l, hl⟩, hdisc⟩ := hasRecentlyDisconnected_spec cfg w account now
    obtain ⟨htol, t, ht⟩ := hdisc hrecent
    have hfull : cfg.playerLimit ≤ w.sessions.rows.length := by
      rcases hn' with hn' | ⟨hd, -⟩
      · exact hn' ▸ hlimit.2.1
      have := hdec hd
      omega
    have htrue : w.trulyRecent cfg account now = true := by
      refine any_eq_true.mpr ⟨(account, t), ht, ?_⟩
      simpa using hreg hlimit.2.2 htol hfull t ht
    rw [hl, htrue]
    exact ⟨Ordered.letIn h hget nofun, Or.inl rfl, hput _ rfl⟩
  · -- made to wait
    obtain ⟨⟨l, hl⟩, -⟩ := hasRecentlyDisconnected_spec cfg w account now
    have hfull : cfg.playerLimit ≤ active w.sessions w.queuedPlayer := by
      by_cases hq : w.queuedPlayer = []
      · rcases hn' with hn' | ⟨hd, -⟩
        · have := hlimit.2.1
          rw [hq, length_nil] at hrows
          rw [hq]
          omega
        · exact hdec hd
      · exact h.full hq
    rw [hl]
    refine ⟨Ordered.wait h hget hfull, Or.inr rfl, fun a ha => ?_⟩
    obtain ⟨a', ha', rfl⟩ := mem_flag.mp ha
    have := hput _ rfl a' ha'
    split_ifs <;> exact this
  -- there is room, or the account does not count
  refine ⟨Ordered.letIn h hget fun hplayer _ => ?_, Or.inl rfl, hput _ rfl⟩
  have hroom : n < cfg.playerLimit := by
    by_contra hn
    exact hlimit ⟨hL, not_lt.mp hn, hplayer⟩
  show counted w.sessions w.queuedPlayer + 1 ≤ cfg.playerLimit
  rcases hn' with hn' | ⟨-, hn'⟩ <;> omega

end Enter

/-! ### One event -/

section Step

variable {cfg : Config} {w : World}

theorem Kept.lt_made_of_queued (h : Kept cfg w) {p : ℕ} (hp : p ∈ w.queuedPlayer) : p < w.made := by
  obtain ⟨a, ha, rfl⟩ := h.live p hp
  exact h.lt_made a ha

theorem Kept.inOrder {s : WorldSession} {k : ℕ} {w' w'' : World} (h : Kept cfg w)
    (hl : Left cfg w s k w')
    (hq : w''.queuedPlayer = w'.queuedPlayer ∨ w''.queuedPlayer = w'.queuedPlayer ++ [w.made])
    (hrows : ∀ a ∈ w''.sessions.rows, a.ptr = w.made ∨ a.ptr ≠ s.ptr) : InOrder w w'' := by
  rintro p hp q hqmem hpq hgone ⟨a, ha, rfl⟩ hstill
  have hnodup : w.queuedPlayer.Nodup := h.sorted.imp fun h => Nat.ne_of_lt h
  have hamade := h.lt_made_of_queued hqmem
  have hane : a.ptr ≠ s.ptr := (hrows a ha).resolve_left (Nat.ne_of_lt hamade)
  have hmem : a.ptr ∈ w.queuedPlayer.erase s.ptr := (mem_erase_of_ne hane).mpr hqmem
  have hgone' : a.ptr ∉ w'.queuedPlayer := fun h' => hgone <| by
    rcases hq with hq | hq
    · exact hq ▸ h'
    · exact hq ▸ mem_append_left _ h'
  have hstill' : p ∈ w'.queuedPlayer := by
    rcases hq with hq | hq
    · exact hq ▸ hstill
    rcases mem_append.mp (hq ▸ hstill) with h' | h'
    · exact h'
    have := h.lt_made_of_queued hp
    rw [mem_singleton.mp h'] at this
    exact absurd this (Nat.lt_irrefl _)
  rcases hl.queued with heq | ⟨p', heq⟩
  · exact hgone' (heq ▸ hmem)
  -- whoever was let in stood in front of everybody
  rw [heq] at hmem
  rcases mem_cons.mp hmem with hfirst | h'
  · have hsorted := h.sorted.sublist (erase_sublist (a := s.ptr))
    rw [heq] at hsorted
    have := (pairwise_cons.mp hsorted).1 p hstill'
    omega
  · exact hgone' h'

variable {account : ℕ} {now : ℤ}

/-- **A login.** -/
theorem Kept.addSession {security : ℕ} {loading : Bool} (hL : 0 < cfg.playerLimit) (h : Kept cfg w)
    (hreg : Regular cfg w (.add account security loading now)) :
    Kept cfg (w.addSession cfg account security loading now) ∧
      InOrder w (w.addSession cfg account security loading now) := by
  unfold World.addSession
  cases hget : w.sessions.get? account with
  | none =>
    have herase : w.sessions.erase account = w.sessions := eq_of_rows (erase_of_get?_none hget)
    have hreg' (hplayer : isPlayerAccount security) (htol : cfg.disconnectTolerance ≠ 0)
        (hfull : cfg.playerLimit ≤ w.sessions.rows.length) (t : ℤ)
        (ht : (account, t) ∈ w.disconnects) : now - t < cfg.disconnectTolerance := by
      exact hreg (fun _ => hget) hplayer htol (by rw [herase]; exact hfull) t ht
    obtain ⟨hkept, hq, -⟩ := h.enter hL account security true now hget nofun hreg'
    refine ⟨hkept, fun p _ q hqmem _ hgone => absurd ?_ hgone⟩
    rcases hq with hq | hq
    · exact hq ▸ hqmem
    · exact hq ▸ mem_append_left _ hqmem
  | some old =>
    dsimp only
    split_ifs with hload
    · exact ⟨{ h with lt_made := fun a ha => (h.lt_made a ha).trans (Nat.lt_succ_self _) },
        fun p _ q hqmem _ hgone => absurd hqmem hgone⟩
    have hl := left_removeQueuedPlayer hL h hget
    have hfound : (w.removeQueuedPlayer cfg old.ptr).1 = decide (old.ptr ∈ w.queuedPlayer) := by
      rw [removeQueuedPlayer_eq h hget]
    generalize w.removeQueuedPlayer cfg old.ptr = r at hl hfound ⊢
    obtain ⟨found, w'⟩ := r
    dsimp only at hl hfound ⊢
    have hkept : Kept cfg { w' with sessions := w'.sessions.erase account } := by
      have := hl.ordered
      rw [← hl.made] at this
      exact this
    obtain ⟨hentered, hq, hrows⟩ := hkept.enter hL account security (!found) now
      (by show (w'.sessions.erase account).get? account = none
          rw [get?_erase, if_pos rfl])
      (fun hd => hl.full (by simpa [hfound] using hd))
      (fun hplayer htol hfull t ht => hreg (fun hl => absurd hl hload) hplayer htol
        (hl.length ▸ hfull) t (hl.disconnects ▸ ht))
    refine ⟨hentered, h.inOrder hl ?_ fun a ha => ?_⟩
    · rw [← hl.made]
      exact hq
    rw [← hl.made]
    rcases hrows a ha with ha | ⟨b, hb, hba⟩
    · exact Or.inl ha
    · exact Or.inr (hba ▸ hl.others b hb)

/-- **The end of a session.** -/
theorem Kept.removeSession (hL : 0 < cfg.playerLimit) (h : Kept cfg w) :
    Kept cfg (w.removeSession cfg account now) ∧ InOrder w (w.removeSession cfg account now) := by
  unfold World.removeSession
  cases hget : w.sessions.get? account with
  | none => exact ⟨h, fun p _ q hqmem _ hgone => absurd hqmem hgone⟩
  | some s =>
    have hl := left_removeQueuedPlayer hL h hget
    dsimp only
    generalize w.removeQueuedPlayer cfg s.ptr = r at hl ⊢
    obtain ⟨found, w'⟩ := r
    dsimp only at hl ⊢
    -- the disconnect is put on record or not
    obtain ⟨d, hd⟩ : ∃ d, (if ¬ found = true ∧ cfg.disconnectTolerance ≠ 0 then
        w'.noteDisconnect account now else w') = { w' with disconnects := d } := by
      split_ifs
      · exact ⟨_, rfl⟩
      · exact ⟨w'.disconnects, rfl⟩
    rw [hd, removeQueuedPlayer_again hL h hl d]
    refine ⟨?_, h.inOrder hl (Or.inl rfl) fun a ha => Or.inr (hl.others a ha)⟩
    have := hl.ordered
    rw [← hl.made] at this
    exact this

/-- **Every event** keeps the books of the queue, and nobody is let in out of order. -/
theorem Kept.step (hL : 0 < cfg.playerLimit) (h : Kept cfg w) {e : Event}
    (hreg : Regular cfg w e) : Kept cfg (step cfg w e) ∧ InOrder w (step cfg w e) := by
  cases e with
  | add account security loading now => exact h.addSession hL hreg
  | remove account now => exact h.removeSession hL

theorem length_filter_eq_sum {α : Type} (p : α → Bool) (l : List α) :
    (l.filter p).length = (l.map fun a => if p a then 1 else 0).sum := by
  induction l with
  | nil => rfl
  | cons a l ih =>
    rw [map_cons, sum_cons, ← ih]
    by_cases ha : p a = true <;> simp [ha]
    omega

theorem Kept.fair (h : Kept cfg w) : Fair cfg w where
  flagged_iff s hs := by
    rw [h.flags s hs]
    exact decide_eq_true_iff
  once := h.sorted.imp fun h => Nat.ne_of_lt h
  waiting := h.live
  within_limit := by
    refine le_of_eq_of_le ?_ h.bound
    unfold ordinary
    rw [length_filter_eq_sum]
    refine sum_congr (t := w.sessions) fun s hs => ?_
    rw [h.flags s hs]
    by_cases hq : s.ptr ∈ w.queuedPlayer <;> simp [hq]

end Step

/-! ### Runs -/

theorem kept_empty (cfg : Config) : Kept cfg empty where
  inj _ h := absurd h not_mem_nil
  lt_made _ h := absurd h not_mem_nil
  sorted := Pairwise.nil
  live _ h := absurd h not_mem_nil
  flags _ h := absurd h not_mem_nil
  full h := absurd rfl h
  bound := Nat.zero_le _

/-- **The login queue.**  With a player limit, along every run of logins and ends of
sessions in which no player account logs in over the limit on account of a disconnect that
is not recent any more, those who wait are let in in the order they came and the world is
fair after every event. -/
theorem fair_of_regular (cfg : Config) (hL : 0 < cfg.playerLimit) (es : List Event)
    (h : Along (step cfg) (Regular cfg) empty es) :
    Along (step cfg) (fun w e => InOrder w (step cfg w e) ∧ Fair cfg (step cfg w e)) empty es :=
  Along.of_invariant (I := Kept cfg) (fun _ _ hw hr => (hw.step hL hr).1)
    (fun _ _ hw hr => ⟨(hw.step hL hr).2, (hw.step hL hr).1.fair⟩) (kept_empty cfg) h

/-- One place and a tolerance of a minute. -/
def onePlace : Config := ⟨1, 60⟩

/-- Account 1 is in, 2 and 3 wait; 1 leaves and comes back at once. -/
def turns : List Event :=
  [.add 1 0 false 0, .add 2 0 false 1, .add 3 0 false 2, .remove 1 100, .add 1 0 false 110]

theorem regular_turns : Along (step onePlace) (Regular onePlace) empty turns := by
  refine ⟨?_, ?_, ?_, trivial, ?_, trivial⟩
  all_goals
    intro _ _ _ _ t ht
    revert ht
  · exact fun ht => absurd ht (not_mem_nil)
  · exact fun ht => absurd ht (not_mem_nil)
  · exact fun ht => absurd ht (not_mem_nil)
  intro ht
  obtain rfl : t = 100 := by
    have : (1, t) ∈ [((1 : ℕ), (100 : ℤ))] := ht
    simpa using this
  decide

/-- A run the condition allows. -/
theorem fair_of_regular_turns : Along (step onePlace) (Regular onePlace) empty turns ∧
      Along (step onePlace) (fun w e => InOrder w (step onePlace w e) ∧
        Fair onePlace (step onePlace w e)) empty turns :=
  ⟨regular_turns, fair_of_regular onePlace (by decide) turns regular_turns⟩

/-- **Let in for a disconnect of the day before.**  Account 1 leaves and account 2 takes its
place; a day later account 1 is let in beside it. -/
theorem yesterday_let_in : ¬ ∀ (cfg : Config), 0 < cfg.playerLimit → ∀ es : List Event,
    Along (step cfg) (fun w e => InOrder w (step cfg w e) ∧ Fair cfg (step cfg w e)) empty es := by
  intro h
  obtain ⟨-, -, -, ⟨-, hfair⟩, -⟩ := h onePlace (by decide)
    [.add 1 0 false 0, .remove 1 100, .add 2 0 false 200, .add 1 0 false 86500]
  have hlimit := hfair.within_limit
  revert hlimit
  decide +kernel

end ZerosCore.LoginQueue
