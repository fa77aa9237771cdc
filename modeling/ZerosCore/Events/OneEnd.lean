/-
# Every event comes to one end

`events_along`: along every run of the event processor
(`src/server/shared/Utilities/EventProcessor.cpp`) that keeps the promises of `Meets`, an
event that was added is executed to its end once or aborted once, unless it still waits,
and those executed are due and the first of the queue.

`Inv` is the invariant of the queue.  It holds between callbacks and, but for the event
that runs, inside of them; what a callback adds keeps it (`Inv.addEvents`), taking the
front keeps it (`Inv.take`), aborting in place keeps it (`Inv.abort`), and dropping what
was aborted keeps it (`Inv.drop`).
-/

import ZerosCore.Events.Processor

namespace ZerosCore.EventProcessor

open Lib List Option Processor Call Multimap

/-! ### The invariant -/

theorem Entry.Precedes.le {x y : Entry} (h : x.Precedes y) : x.time ≤ y.time := by
  rcases h with h | h
  · exact h.le
  · exact h.1.le

/-- **The invariant of the queue.**  It is in order and holds no event twice; an event in it
was not ended, unless it was aborted and kept, and one that left it was ended once.  `busy`
is the event whose `Execute` is running. -/
structure Inv (busy : Option ℕ) (p : Processor) : Prop where
  sorted : p.queue.Pairwise Entry.Precedes
  seq : ∀ x ∈ p.queue, x.seq < p.seq
  nodup : (p.queue.map Entry.event).Nodup
  added : ∀ x ∈ p.queue, x.event ∈ p.added
  waiting : ∀ e ∈ p.added, busy ≠ some e → p.Queued e → Call.abort e ∉ p.calls → p.ended e = 0
  done : ∀ e ∈ p.added, busy ≠ some e → (¬ p.Queued e ∨ Call.abort e ∈ p.calls) → p.ended e = 1
  fresh : ∀ e ∉ p.added, p.ended e = 0 ∧ Call.abort e ∉ p.calls
  marked : ∀ e, Call.abort e ∈ p.calls → (p.object e).toAbort = true

section Inv

variable {p p' : Processor} {busy : Option ℕ} {x : Entry} {a : Add} {adds : List Add}

theorem Inv.of_same (h : Inv busy p) (hqueue : p'.queue = p.queue) (hseq : p'.seq = p.seq)
    (hadded : p'.added = p.added) (hcalls : p'.calls = p.calls)
    (hmark : ∀ e, (p.object e).toAbort = true → (p'.object e).toAbort = true) : Inv busy p' where
  sorted := hqueue ▸ h.sorted
  seq := by
    rw [hqueue, hseq]
    exact h.seq
  nodup := hqueue ▸ h.nodup
  added := by
    rw [hqueue, hadded]
    exact h.added
  waiting := by
    simp only [ended, Processor.Queued, hqueue, hadded, hcalls]
    exact h.waiting
  done := by
    simp only [ended, Processor.Queued, hqueue, hadded, hcalls]
    exact h.done
  fresh := by
    simp only [ended, hadded, hcalls]
    exact h.fresh
  marked e he := hmark e (h.marked e (hcalls ▸ he))

theorem Inv.drop (h : Inv busy p) (hsub : p'.queue.Sublist p.queue)
    (hdrop : ∀ x ∈ p.queue, x ∈ p'.queue ∨ abort x.event ∈ p.calls) (hseq : p'.seq = p.seq)
    (hadded : p'.added = p.added) (hcalls : p'.calls = p.calls) (hobj : p'.object = p.object) :
    Inv busy p' where
  sorted := h.sorted.sublist hsub
  seq x hx := hseq ▸ h.seq x (hsub.subset hx)
  nodup := h.nodup.sublist (hsub.map _)
  added x hx := hadded ▸ h.added x (hsub.subset hx)
  waiting := by
    rintro e he hbusy ⟨x, hx, rfl⟩ habort
    rw [hadded] at he
    rw [hcalls] at habort
    simp only [ended, hcalls]
    exact h.waiting _ he hbusy ⟨x, hsub.subset hx, rfl⟩ habort
  done := by
    intro e he hbusy hleft
    rw [hadded] at he
    rw [hcalls] at hleft
    simp only [ended, hcalls]
    refine h.done e he hbusy ?_
    rcases hleft with hleft | habort
    · by_contra hboth
      push Not at hboth
      obtain ⟨⟨x, hx, rfl⟩, habort⟩ := hboth
      rcases hdrop x hx with hx' | hx'
      · exact hleft ⟨x, hx', rfl⟩
      · exact habort hx'
    · exact .inr habort
  fresh := by
    simp only [ended, hadded, hcalls]
    exact h.fresh
  marked e he := by
    rw [hobj]
    exact h.marked e (hcalls ▸ he)

variable {c : Call} {e : ℕ}

theorem ended_cons_ne (h : ends e c = false) (calls : List Call) :
    (c :: calls).countP (ends e) = calls.countP (ends e) := by
  rw [countP_cons, h]
  simp

theorem ended_cons_self (h : ends e c = true) (calls : List Call) :
    (c :: calls).countP (ends e) = calls.countP (ends e) + 1 := by
  rw [countP_cons, h]
  simp

/-! ### Adding events -/

theorem Processor.queue_place (p : Processor) (entry : Entry)
    (h : p.queue.Pairwise fun x y => x.time ≤ y.time) :
    (p.place entry).queue = insert Entry.time entry p.queue := by
  obtain ⟨-, -, hcross⟩ := pairwise_append.mp h
  unfold place queue
  cases hrest : p.rest with
  | nil => simp
  | cons y rest =>
    rw [hrest] at hcross
    dsimp only
    split_ifs with hle
    · refine (insert_append_of_le fun c hc => ?_).symm
      exact (hcross c hc y mem_cons_self).trans hle
    refine (insert_append_of_lt fun c hc => ?_).symm
    obtain rfl := some.inj hc
    exact not_le.mp hle

theorem Processor.place_frame (p : Processor) (entry : Entry) :
    ∃ events rest, p.place entry = { p with events, rest } := by
  unfold place
  split
  · exact ⟨_, _, rfl⟩
  · split_ifs <;> exact ⟨_, _, rfl⟩

theorem Processor.addEvent_frame (p : Processor) (a : Add) :
    (p.addEvent a).time = p.time ∧ (p.addEvent a).calls = p.calls ∧
      (p.addEvent a).control = p.control ∧ (p.addEvent a).ran = p.ran ∧
      (p.addEvent a).seq = p.seq + 1 ∧ (p.addEvent a).added = a.event :: p.added ∧
      ∀ e, ((p.addEvent a).object e).toAbort = (p.object e).toAbort := by
  unfold addEvent
  obtain ⟨events, rest, h⟩ := place_frame { p with
      object := Function.update p.object a.event { p.object a.event with
          addTime := if a.setAddTime then p.time else (p.object a.event).addTime
          execTime := a.time }
      seq := p.seq + 1
      added := a.event :: p.added } ⟨a.time, a.event, p.seq⟩
  rw [h]
  refine ⟨rfl, rfl, rfl, rfl, rfl, rfl, fun e => ?_⟩
  dsimp only
  rcases eq_or_ne e a.event with rfl | hne
  · rw [Function.update_self]
  · rw [Function.update_of_ne hne]

theorem Processor.addEvents_frame (p : Processor) (adds : List Add) :
    (p.addEvents adds).time = p.time ∧ (p.addEvents adds).calls = p.calls ∧
      (p.addEvents adds).control = p.control ∧ (p.addEvents adds).ran = p.ran ∧
      p.seq ≤ (p.addEvents adds).seq := by
  induction adds generalizing p with
  | nil => exact ⟨rfl, rfl, rfl, rfl, le_refl _⟩
  | cons a adds ih =>
    obtain ⟨htime, hcalls, hcontrol, hran, hseq, -⟩ := p.addEvent_frame a
    obtain ⟨htime', hcalls', hcontrol', hran', hseq'⟩ := ih (p.addEvent a)
    exact ⟨htime'.trans htime, hcalls'.trans hcalls, hcontrol'.trans hcontrol,
      hran'.trans hran, le_trans (by omega) hseq'⟩

theorem Processor.queue_addEvent (p : Processor) (a : Add)
    (h : p.queue.Pairwise fun x y => x.time ≤ y.time) :
    (p.addEvent a).queue = insert Entry.time ⟨a.time, a.event, p.seq⟩ p.queue :=
  queue_place _ _ h

theorem Inv.queue_addEvent (h : Inv busy p) (a : Add) :
    (p.addEvent a).queue = insert Entry.time ⟨a.time, a.event, p.seq⟩ p.queue :=
  p.queue_addEvent a (h.sorted.imp Entry.Precedes.le)

/-- **An event is added** that is not queued, and is new or the one that runs. -/
theorem Inv.addEvent (h : Inv busy p) (hqueued : ¬ p.Queued a.event)
    (hnew : a.event ∉ p.added ∨ busy = some a.event) : Inv busy (p.addEvent a) := by
  have hqueue := h.queue_addEvent a
  obtain ⟨-, hcalls, -, -, hseq, hadded, htoAbort⟩ := p.addEvent_frame a
  have hmem : ∀ x ∈ (p.addEvent a).queue, x = ⟨a.time, a.event, p.seq⟩ ∨ x ∈ p.queue := by
    intro x hx
    rw [hqueue] at hx
    exact mem_insert.mp hx
  refine ⟨?_, ?_, ?_, ?_, ?_, ?_, ?_, ?_⟩
  · rw [hqueue]
    refine pairwise_insert h.sorted (fun b hb hle => ?_) (fun b _ hlt => .inl hlt)
      (h.sorted.imp Entry.Precedes.le)
    rcases Nat.lt_or_eq_of_le hle with hlt | heq
    · exact .inl hlt
    · exact .inr ⟨heq, h.seq b hb⟩
  · intro x hx
    rw [hseq]
    rcases hmem x hx with rfl | hx
    · exact Nat.lt_succ_self _
    · exact Nat.lt_succ_of_lt (h.seq x hx)
  · rw [hqueue, (insert_perm.map Entry.event).nodup_iff, map_cons, nodup_cons]
    refine ⟨fun hin => ?_, h.nodup⟩
    obtain ⟨x, hx, heq⟩ := mem_map.mp hin
    exact hqueued ⟨x, hx, heq⟩
  · intro x hx
    rw [hadded]
    rcases hmem x hx with rfl | hx
    · exact mem_cons_self
    · exact mem_cons_of_mem _ (h.added x hx)
  · rintro e he hbusy ⟨x, hx, rfl⟩ habort
    rw [hcalls] at habort
    simp only [ended, hcalls]
    rcases hmem x hx with rfl | hx
    · have hfresh := hnew.resolve_right hbusy
      exact (h.fresh _ hfresh).1
    · exact h.waiting _ (h.added x hx) hbusy ⟨x, hx, rfl⟩ habort
  · intro e he hbusy hleft
    rw [hcalls] at hleft
    simp only [ended, hcalls]
    rw [hadded] at he
    rcases mem_cons.mp he with rfl | he
    · have hfresh := hnew.resolve_right hbusy
      rcases hleft with hleft | habort
      · refine (hleft ⟨⟨a.time, a.event, p.seq⟩, ?_, rfl⟩).elim
        rw [hqueue]
        exact mem_insert.mpr (.inl rfl)
      · exact ((h.fresh _ hfresh).2 habort).elim
    refine h.done e he hbusy (hleft.imp_left fun hleft => ?_)
    rintro ⟨x, hx, rfl⟩
    refine hleft ⟨x, ?_, rfl⟩
    rw [hqueue]
    exact mem_insert.mpr (.inr hx)
  · intro e he
    rw [hadded, mem_cons, not_or] at he
    simp only [ended, hcalls]
    exact h.fresh e he.2
  intro e he
  rw [htoAbort]
  exact h.marked e (hcalls ▸ he)

/-- What the `AddEvent` calls of a callback do to the queue. -/
structure AddedTo (p : Processor) (adds : List Add) (p' : Processor) : Prop where
  keeps : ∀ x ∈ p.queue, x ∈ p'.queue
  new : ∀ x ∈ p'.queue, x ∈ p.queue ∨ p.seq ≤ x.seq ∧ ∃ a ∈ adds, x.time = a.time
  queued : ∀ a ∈ adds, p'.Queued a.event

/-- **The events of a callback are added.** -/
theorem Inv.addEvents (h : Inv busy p) (hnodup : (adds.map Add.event).Nodup)
    (hadds : ∀ a ∈ adds, ¬ p.Queued a.event ∧ (a.event ∉ p.added ∨ busy = some a.event)) :
    Inv busy (p.addEvents adds) ∧ AddedTo p adds (p.addEvents adds) := by
  induction adds generalizing p with
  | nil => exact ⟨h, fun _ hx => hx, fun _ hx => .inl hx, nofun⟩
  | cons a adds ih =>
    obtain ⟨hqueued, hnew⟩ := hadds a mem_cons_self
    rw [map_cons, nodup_cons] at hnodup
    have hqueue := h.queue_addEvent a
    obtain ⟨-, -, -, -, hseq, hadded, -⟩ := p.addEvent_frame a
    have hrest : ∀ b ∈ adds, ¬ (p.addEvent a).Queued b.event ∧
        (b.event ∉ (p.addEvent a).added ∨ busy = some b.event) := by
      intro b hb
      have hne : b.event ≠ a.event := by
        intro heq
        exact hnodup.1 (heq ▸ mem_map_of_mem hb)
      obtain ⟨hb1, hb2⟩ := hadds b (mem_cons_of_mem _ hb)
      constructor
      · rintro ⟨x, hx, hxe⟩
        rw [hqueue] at hx
        rcases mem_insert.mp hx with rfl | hx
        · exact hne hxe.symm
        · exact hb1 ⟨x, hx, hxe⟩
      rw [hadded, mem_cons, not_or]
      exact hb2.imp_left fun h' => ⟨hne, h'⟩
    obtain ⟨hinv, hto⟩ := ih (h.addEvent hqueued hnew) hnodup.2 hrest
    refine ⟨hinv, fun x hx => ?_, fun x hx => ?_, fun b hb => ?_⟩
    · refine hto.keeps x ?_
      rw [hqueue]
      exact mem_insert.mpr (.inr hx)
    · rcases hto.new x hx with hx | ⟨hxseq, b, hb, hxb⟩
      · rw [hqueue] at hx
        rcases mem_insert.mp hx with rfl | hx
        · exact .inr ⟨le_refl _, a, mem_cons_self, rfl⟩
        · exact .inl hx
      · exact .inr ⟨by omega, b, mem_cons_of_mem _ hb, hxb⟩
    rcases mem_cons.mp hb with rfl | hb
    · refine ⟨⟨b.time, b.event, p.seq⟩, hto.keeps _ ?_, rfl⟩
      rw [hqueue]
      exact mem_insert.mpr (.inl rfl)
    · exact hto.queued b hb

theorem Processor.addEvents_behind {y : Entry} (hy : p.rest.head? = some y)
    (hadds : ∀ a ∈ adds, y.time ≤ a.time) :
    (p.addEvents adds).events = p.events ∧ (p.addEvents adds).rest.head? = some y := by
  induction adds generalizing p with
  | nil => exact ⟨rfl, hy⟩
  | cons a adds ih =>
    have hone : (p.addEvent a).events = p.events ∧ (p.addEvent a).rest.head? = some y := by
      have hle := hadds a mem_cons_self
      unfold addEvent place
      cases hrest : p.rest with
      | nil =>
        rw [hrest] at hy
        cases hy
      | cons z rest =>
        rw [hrest] at hy
        obtain rfl := some.inj hy
        dsimp only
        rw [if_pos hle, Multimap.insert, if_pos hle]
        exact ⟨rfl, rfl⟩
    obtain ⟨h1, h2⟩ := ih hone.2 fun b hb => hadds b (mem_cons_of_mem _ hb)
    exact ⟨h1.trans hone.1, h2⟩

/-! ### Taking events -/

theorem Call.ends_ne {e' : ℕ} (hc : (∃ done, c = .execute e done) ∨ c = .abort e)
    (hne : e' ≠ e) : ends e' c = false := by
  rcases hc with ⟨done, rfl⟩ | rfl <;> simp [ends, Ne.symm hne]

/-- **The front of the queue is taken** and executed, or aborted because it is marked; if
the call does not end it, it is busy. -/
theorem Inv.take {q : List Entry} (h : Inv none p) (hqueue : p.queue = x :: q)
    (habort : abort x.event ∉ p.calls) (hc : (∃ done, c = .execute x.event done) ∨
      c = .abort x.event ∧ (p.object x.event).toAbort = true)
    (hqueue' : p'.queue = q) (hseq : p'.seq = p.seq) (hadded : p'.added = p.added)
    (hcalls : p'.calls = c :: p.calls) (hobj : p'.object = p.object) :
    Inv (if ends x.event c then none else some x.event) p' := by
  have hc' : (∃ done, c = .execute x.event done) ∨ c = .abort x.event := hc.imp_right And.left
  have hnodup := h.nodup
  rw [hqueue, map_cons, nodup_cons] at hnodup
  have hx : x ∈ p.queue := hqueue ▸ mem_cons_self
  have hsub : ∀ y ∈ q, y ∈ p.queue := fun y hy => hqueue ▸ mem_cons_of_mem _ hy
  have hzero := h.waiting x.event (h.added x hx) (by simp) ⟨x, hx, rfl⟩ habort
  have hother : ∀ e ≠ x.event, (p'.Queued e ↔ p.Queued e) := by
    intro e hne
    unfold Processor.Queued
    rw [hqueue', hqueue]
    constructor
    · rintro ⟨y, hy, rfl⟩
      exact ⟨y, mem_cons_of_mem _ hy, rfl⟩
    rintro ⟨y, hy, rfl⟩
    rcases mem_cons.mp hy with rfl | hy
    · exact (hne rfl).elim
    · exact ⟨y, hy, rfl⟩
  have hmemc : ∀ e ≠ x.event, (abort e ∈ p'.calls ↔ abort e ∈ p.calls) := by
    intro e hne
    rw [hcalls, mem_cons, or_iff_right]
    rintro rfl
    rcases hc' with ⟨done, hd⟩ | hd
    · cases hd
    · exact hne (abort.inj hd)
  have hended : ∀ e ≠ x.event, p'.ended e = p.ended e := by
    intro e hne
    unfold ended
    rw [hcalls, ended_cons_ne (ends_ne hc' hne)]
  refine ⟨?_, ?_, ?_, ?_, ?_, ?_, ?_, ?_⟩
  · rw [hqueue']
    exact (hqueue ▸ h.sorted).tail
  · rw [hqueue', hseq]
    exact fun y hy => h.seq y (hsub y hy)
  · rw [hqueue']
    exact hnodup.2
  · rw [hqueue', hadded]
    exact fun y hy => h.added y (hsub y hy)
  · rintro e he - ⟨y, hy, rfl⟩ hnot
    rw [hqueue'] at hy
    have hne : y.event ≠ x.event := by
      intro heq
      exact hnodup.1 (heq ▸ mem_map_of_mem hy)
    rw [hended _ hne]
    exact h.waiting _ (h.added y (hsub y hy)) (by simp) ⟨y, hsub y hy, rfl⟩
      ((hmemc _ hne).not.mp hnot)
  · intro e he hbusy hleft
    rw [hadded] at he
    rcases eq_or_ne e x.event with rfl | hne
    · have hends : ends x.event c = true := by
        by_contra hnot
        rw [if_neg hnot] at hbusy
        exact hbusy rfl
      unfold ended at hzero ⊢
      rw [hcalls, ended_cons_self hends, hzero]
    rw [hended e hne]
    rw [hother e hne, hmemc e hne] at hleft
    exact h.done e he (by simp) hleft
  · intro e he
    rw [hadded] at he
    have hne : e ≠ x.event := fun heq => he (heq ▸ h.added x hx)
    rw [hended e hne, hmemc e hne]
    exact h.fresh e he
  intro e he
  rw [hobj]
  rcases eq_or_ne e x.event with rfl | hne
  · rw [hcalls, mem_cons] at he
    rcases he with he | he
    · rcases hc with ⟨done, hd⟩ | hd
      · rw [hd] at he
        cases he
      · exact hd.2
    · exact (habort he).elim
  · exact h.marked e ((hmemc e hne).mp he)

/-- **An event is aborted in its place.** -/
theorem Inv.abort (h : Inv none p) (hx : x ∈ p.queue) (habort : abort x.event ∉ p.calls)
    (hqueue' : p'.queue = p.queue) (hseq : p'.seq = p.seq) (hadded : p'.added = p.added)
    (hcalls : p'.calls = .abort x.event :: p.calls) (hmark : (p'.object x.event).toAbort = true)
    (hmarks : ∀ e, (p.object e).toAbort = true → (p'.object e).toAbort = true) : Inv none p' := by
  have hzero := h.waiting x.event (h.added x hx) (by simp) ⟨x, hx, rfl⟩ habort
  have hqueued : ∀ e, p'.Queued e ↔ p.Queued e := by
    intro e
    unfold Processor.Queued
    rw [hqueue']
  have hmemc : ∀ e ≠ x.event, (Call.abort e ∈ p'.calls ↔ Call.abort e ∈ p.calls) := by
    intro e hne
    rw [hcalls, mem_cons, or_iff_right]
    exact fun heq => hne (abort.inj heq)
  have hended : ∀ e ≠ x.event, p'.ended e = p.ended e := by
    intro e hne
    unfold ended
    rw [hcalls, ended_cons_ne (ends_ne (.inr rfl) hne)]
  refine ⟨hqueue' ▸ h.sorted, ?_, hqueue' ▸ h.nodup, ?_, ?_, ?_, ?_, ?_⟩
  · rw [hqueue', hseq]
    exact h.seq
  · rw [hqueue', hadded]
    exact h.added
  · intro e he _ hq hnot
    have hne : e ≠ x.event := by
      rintro rfl
      rw [hcalls] at hnot
      exact hnot mem_cons_self
    rw [hended e hne]
    exact h.waiting e (hadded ▸ he) (by simp) ((hqueued e).mp hq) ((hmemc e hne).not.mp hnot)
  · intro e he _ hleft
    rcases eq_or_ne e x.event with rfl | hne
    · unfold ended at hzero ⊢
      rw [hcalls, ended_cons_self (by simp [ends]), hzero]
    rw [hended e hne]
    rw [hqueued, hmemc e hne] at hleft
    exact h.done e (hadded ▸ he) (by simp) hleft
  · intro e he
    rw [hadded] at he
    have hne : e ≠ x.event := fun heq => he (heq ▸ h.added x hx)
    rw [hended e hne, hmemc e hne]
    exact h.fresh e he
  intro e he
  rcases eq_or_ne e x.event with rfl | hne
  · exact hmark
  · exact hmarks e (h.marked e ((hmemc e hne).mp he))

theorem Inv.release (h : Inv (some e) p) (hended : p.ended e = 0)
    (habort : Call.abort e ∉ p.calls) (hqueued : p.Queued e) : Inv none p := by
  refine { h with waiting := ?_, done := ?_ }
  · intro e' he' _ hq hnot
    rcases eq_or_ne e e' with rfl | hne
    · exact hended
    · exact h.waiting e' he' (by simpa using hne) hq hnot
  intro e' he' _ hleft
  rcases eq_or_ne e e' with rfl | hne
  · rcases hleft with hleft | hleft
    · exact (hleft hqueued).elim
    · exact (habort hleft).elim
  · exact h.done e' he' (by simpa using hne) hleft

end Inv

/-! ### Steps -/

/-- The invariant between callbacks. -/
structure Ready (p : Processor) : Prop where
  inv : Inv none p
  walk : (∀ force, p.control ≠ .killing force) → p.rest = []
  due : ∀ dt, p.control = .updating dt → ∃ x ∈ p.events.head?, x.time ≤ p.time
  passed : p.control = .killing true → ∀ x ∈ p.events, Call.abort x.event ∈ p.calls

section Steps

variable {p : Processor} {adds : List Add}

theorem ready_init : Ready {} where
  inv := ⟨Pairwise.nil, nofun, nodup_nil, nofun,
    nofun, nofun, fun _ _ => ⟨rfl, nofun⟩,
    nofun⟩
  walk _ := rfl
  due _ h := by cases h
  passed h := by cases h

theorem ready_whileDue (dt : ℕ) (h : Inv none p) (hcontrol : p.control = .updating dt)
    (hrest : p.rest = []) : Ready p.whileDue := by
  unfold whileDue
  have hidle : Ready { p with control := .idle } :=
    ⟨h.of_same rfl rfl rfl rfl fun _ hm => hm, fun _ => hrest, nofun,
      nofun⟩
  split
  · exact hidle
  next x events hevents =>
    split_ifs with hdue
    · refine ⟨h, fun _ => hrest, fun _ _ => ⟨x, by rw [hevents]; rfl, hdue⟩, fun hc => ?_⟩
      rw [hcontrol] at hc
      cases hc
    · exact hidle

variable {force : Bool}

theorem ready_whileLeft (h : Inv none p) (hcontrol : p.control = .killing force)
    (hpassed : force = true → ∀ x ∈ p.events, abort x.event ∈ p.calls) :
    Ready (p.whileLeft force) := by
  unfold whileLeft
  split
  · next hrest =>
      refine ⟨?_, fun _ => hrest, nofun, nofun⟩
      have hqueue : p.queue = p.events := by
        unfold queue
        rw [hrest, append_nil]
      refine h.drop ?_ ?_ rfl rfl rfl rfl
      · unfold queue
        rw [hrest, append_nil, append_nil]
        split_ifs
        · exact nil_sublist _
        · exact Sublist.refl _
      intro x hx
      rw [hqueue] at hx
      cases force with
      | true => exact .inr (hpassed rfl x hx)
      | false =>
        left
        unfold queue
        rw [hrest, append_nil]
        exact hx
  next y rest hrest =>
    refine ⟨h, fun hc => (hc force hcontrol).elim, fun dt hc => ?_, fun hc => ?_⟩
    · rw [hcontrol] at hc
      cases hc
    rw [hcontrol] at hc
    exact hpassed (Control.killing.inj hc)

theorem Ready.queue_eq (h : Ready p) (hcontrol : ∀ force, p.control ≠ .killing force) :
    p.queue = p.events := by
  unfold queue
  rw [h.walk hcontrol, append_nil]

theorem Proper.not_queued {p0 : Processor} {self : Option ℕ} (h : Proper p0 self adds)
    (hadded : p.added = p0.added) (hinv : ∀ x ∈ p.queue, x.event ∈ p.added)
    (hself : ∀ e ∈ self, ¬ p.Queued e) :
    ∀ a ∈ adds, ¬ p.Queued a.event ∧ (a.event ∉ p.added ∨ self = some a.event) := by
  intro a ha
  rw [hadded]
  refine ⟨?_, h.2 a ha⟩
  rcases h.2 a ha with hnew | hself'
  · rintro ⟨x, hx, hxe⟩
    exact hnew (hadded ▸ hxe ▸ hinv x hx)
  · exact hself a.event hself'

theorem Processor.addEvents_rest (hrest : p.rest = []) : (p.addEvents adds).rest = [] := by
  induction adds generalizing p with
  | nil => exact hrest
  | cons a adds ih =>
    refine ih (p := p.addEvent a) ?_
    unfold addEvent place
    rw [hrest]

variable {dt : ℕ} {done : Bool}

section

variable (h : Ready p)

include h

/-- **The body of `Update`** takes the front, makes the call and adds what the callback
adds. -/
theorem Ready.taken (hcontrol : p.control = .updating dt)
    (hmeets : Meets p (.callback adds done)) {x : Entry} {events : List Entry}
    (hevents : p.events = x :: events) :
    ∃ p1 : Processor, p.updateBody adds done = (p1.addEvents adds).whileDue ∧
      Inv none (p1.addEvents adds) ∧ AddedTo p1 adds (p1.addEvents adds) ∧ p1.queue = events ∧
      p1.rest = [] ∧ p1.control = .updating dt ∧ p1.seq = p.seq ∧ p1.ran = x :: p.ran := by
  have hkill : ∀ force, p.control ≠ .killing force := by
    intro force hc
    rw [hcontrol] at hc
    cases hc
  have hrest := h.walk hkill
  have hqueue : p.queue = x :: events := (h.queue_eq hkill).trans hevents
  have hmem : x ∈ p.queue := hqueue ▸ mem_cons_self
  unfold Meets at hmeets
  rw [hcontrol] at hmeets
  have hhead := hmeets x (by rw [hevents]; rfl)
  have hq : events ++ p.rest = events := by rw [hrest, append_nil]
  have hgone : ¬ ∃ y ∈ events ++ p.rest, y.event = x.event := by
    rintro ⟨y, hy, hye⟩
    rw [hq] at hy
    have hnodup := h.inv.nodup
    rw [hqueue, map_cons, nodup_cons] at hnodup
    exact hnodup.1 (hye ▸ mem_map_of_mem hy)
  cases hmark : (p.object x.event).toAbort with
  | false =>
    rw [hmark, if_neg Bool.false_ne_true] at hhead
    have habort : abort x.event ∉ p.calls := by
      intro hin
      rw [h.inv.marked _ hin] at hmark
      cases hmark
    refine ⟨{ p with
      events, ran := x :: p.ran, calls := .execute x.event done :: p.calls }, ?_⟩
    refine ⟨?_, ?_⟩
    · unfold updateBody
      rw [hevents]
      dsimp only
      rw [hmark]
      rfl
    obtain ⟨p1, hp1⟩ : ∃ p1 : Processor, p1 = { p with
          events, ran := x :: p.ran, calls := .execute x.event done :: p.calls } := ⟨_, rfl⟩
    have hcalls1 : p1.calls = .execute x.event done :: p.calls := by rw [hp1]
    have htake := h.inv.take hqueue habort (.inl ⟨done, rfl⟩) (by rw [hp1]; exact hq)
      (by rw [hp1]) (by rw [hp1]) hcalls1 (by rw [hp1])
    have hbusy : (if ends x.event (.execute x.event done) then none else some x.event) =
        (if done then none else some x.event : Option ℕ) := by
      simp [ends]
    rw [hbusy] at htake
    obtain ⟨hinv, hto⟩ := htake.addEvents hhead.1.1
      (hhead.1.not_queued (by rw [hp1]) htake.added fun e he => by
        have : e = x.event := by
          cases done with
          | true => cases he
          | false => exact (some.inj he).symm
        subst this
        rw [hp1]
        exact hgone)
    have hcalls := (p1.addEvents_frame adds).2.1
    rw [← hp1]
    refine ⟨?_, hto, ?_⟩
    · cases done with
      | true => exact hinv
      | false =>
        refine hinv.release ?_ ?_ ?_
        · have hzero := h.inv.waiting x.event (h.inv.added x hmem) (by simp) ⟨x, hmem, rfl⟩
            habort
          unfold ended at hzero ⊢
          rw [hcalls, hp1]
          rw [ended_cons_ne (by simp [ends]), hzero]
        · rw [hcalls, hp1, mem_cons, not_or]
          exact ⟨by simp, habort⟩
        obtain ⟨a, ha, hae⟩ := mem_map.mp (hhead.2 rfl)
        exact hae ▸ hto.queued a ha
    rw [hp1]
    exact ⟨hq, hrest, hcontrol, rfl, rfl⟩
  | true =>
    rw [hmark, if_pos rfl] at hhead
    refine ⟨{ p with events, ran := x :: p.ran, calls := .abort x.event :: p.calls }, ?_, ?_⟩
    · unfold updateBody
      rw [hevents]
      dsimp only
      rw [hmark]
      rfl
    obtain ⟨p1, hp1⟩ : ∃ p1 : Processor, p1 = { p with
          events, ran := x :: p.ran, calls := .abort x.event :: p.calls } := ⟨_, rfl⟩
    have hcalls1 : p1.calls = .abort x.event :: p.calls := by rw [hp1]
    have htake := h.inv.take hqueue hhead.2 (.inr ⟨rfl, hmark⟩)
      (by rw [hp1]; exact hq) (by rw [hp1]) (by rw [hp1]) hcalls1 (by rw [hp1])
    rw [if_pos (by simp [ends])] at htake
    obtain ⟨hinv, hto⟩ := htake.addEvents hhead.1.1
      (hhead.1.not_queued (by rw [hp1]) htake.added nofun)
    rw [← hp1]
    refine ⟨hinv, hto, ?_⟩
    rw [hp1]
    exact ⟨hq, hrest, hcontrol, rfl, rfl⟩

/-- **One round of `Update`.** -/
theorem Ready.updateBody (hcontrol : p.control = .updating dt)
    (hmeets : Meets p (.callback adds done)) : Ready (p.updateBody adds done) := by
  cases hevents : p.events with
  | nil =>
    unfold Processor.updateBody
    rw [hevents]
    exact h
  | cons x events =>
    obtain ⟨p1, heq, hinv, -, -, hrest, hcontrol1, -, -⟩ := h.taken hcontrol hmeets hevents
    rw [heq]
    exact ready_whileDue dt hinv ((p1.addEvents_frame adds).2.2.1.trans hcontrol1)
      (addEvents_rest hrest)

/-- **One round of `KillAllEvents`.** -/
theorem Ready.killBody {deletable : Bool} (hcontrol : p.control = .killing force)
    (hmeets : Meets p (.callback adds deletable)) : Ready (p.killBody force adds deletable) := by
  unfold Meets at hmeets
  rw [hcontrol] at hmeets
  obtain ⟨hproper, hfirst, hbehind⟩ := hmeets
  unfold Processor.killBody
  cases hrest : p.rest with
  | nil => exact h
  | cons x rest =>
    have habort := hfirst x (by rw [hrest]; rfl)
    rw [hrest, tail_cons] at hbehind
    dsimp only
    obtain ⟨p1, hp1⟩ : ∃ p1 : Processor, p1 = { p.mark x.event with
          events := p.events ++ [x], rest, calls := .abort x.event :: p.calls } := ⟨_, rfl⟩
    rw [← hp1]
    have hqueue : p1.queue = p.queue := by
      rw [hp1]
      unfold queue
      rw [hrest, append_assoc, singleton_append]
    have hx : x ∈ p.queue := by
      unfold queue
      rw [hrest]
      exact mem_append_right _ mem_cons_self
    have hinv1 : Inv none p1 := by
      refine h.inv.abort hx habort hqueue ?_ ?_ ?_ ?_ ?_
      · rw [hp1]; rfl
      · rw [hp1]; rfl
      · rw [hp1]
      · rw [hp1]
        unfold mark
        dsimp only
        rw [Function.update_self]
      intro e he
      rw [hp1]
      unfold mark
      dsimp only
      rcases eq_or_ne e x.event with rfl | hne
      · rw [Function.update_self]
      rw [Function.update_of_ne hne]
      exact he
    have hadded : p1.added = p.added := by rw [hp1]; rfl
    obtain ⟨hinv, -⟩ := hinv1.addEvents hproper.1
      (hproper.not_queued hadded hinv1.added nofun)
    have hcalls : (p1.addEvents adds).calls = .abort x.event :: p.calls := by
      rw [(p1.addEvents_frame adds).2.1, hp1]
    have hcontrol' : (p1.addEvents adds).control = .killing force := by
      rw [(p1.addEvents_frame adds).2.2.1, hp1]
      exact hcontrol
    -- in the force case everything is added behind the walk
    have hpassed : force = true → ∀ y ∈ (p1.addEvents adds).events,
        abort y.event ∈ (p1.addEvents adds).calls := by
      rintro rfl y hy
      have hevents : (p1.addEvents adds).events = p.events ++ [x] := by
        cases hadds : adds with
        | nil =>
          rw [hp1]
          rfl
        | cons a as =>
          obtain ⟨z, hz, -⟩ := hbehind rfl a (by rw [hadds]; exact mem_cons_self)
          have hbehind' : ∀ b ∈ a :: as, z.time ≤ b.time := by
            intro b hb
            obtain ⟨z', hz', hle⟩ := hbehind rfl b (hadds ▸ hb)
            rw [mem_def.mp hz] at hz'
            exact some.inj hz' ▸ hle
          have hhead : p1.rest.head? = some z := by
            rw [hp1]
            exact hz
          rw [(addEvents_behind hhead hbehind').1, hp1]
      rw [hevents] at hy
      rw [hcalls]
      rcases mem_append.mp hy with hy | hy
      · exact mem_cons_of_mem _ (h.passed hcontrol y hy)
      rw [mem_singleton.mp hy]
      exact mem_cons_self
    split_ifs with herase
    · refine ready_whileLeft (hinv.drop ?_ ?_ rfl rfl rfl rfl) hcontrol' ?_
      · exact Sublist.append_right filter_sublist _
      · intro y hy
        rcases eq_or_ne y x with rfl | hne
        · right
          rw [hcalls]
          exact mem_cons_self
        left
        rcases mem_append.mp hy with hy | hy
        · exact mem_append_left _ (mem_filter.mpr ⟨hy, by simpa using hne⟩)
        · exact mem_append_right _ hy
      intro hforce y hy
      exact hpassed hforce y (mem_filter.mp hy).1
    · exact ready_whileLeft hinv hcontrol' hpassed

/-- **Every step that meets its promise keeps the invariant.** -/
theorem Ready.step {op : Op} (hmeets : Meets p op) : Ready (step p op) := by
  cases op with
  | addEvent a =>
    unfold EventProcessor.step
    split_ifs with hidle
    · have hnew : a.event ∉ p.added := hmeets hidle
      have hqueued : ¬ p.Queued a.event := by
        rintro ⟨x, hx, hxe⟩
        exact hnew (hxe ▸ h.inv.added x hx)
      have hcontrol : (p.addEvent a).control = .idle := (p.addEvent_frame a).2.2.1.trans hidle
      refine ⟨h.inv.addEvent hqueued (.inl hnew), fun _ => ?_, fun dt hc => ?_, fun hc => ?_⟩
      · have hrest : p.rest = [] := h.walk fun force hc => by
          rw [hidle] at hc
          cases hc
        have hrest' : (p.addEvents [a]).rest = [] := addEvents_rest hrest
        exact hrest'
      · rw [hcontrol] at hc
        cases hc
      rw [hcontrol] at hc
      cases hc
    · exact h
  | update dt =>
    unfold EventProcessor.step
    split_ifs with hidle
    · have hrest : p.rest = [] := h.walk fun force hc => by
        rw [hidle] at hc
        cases hc
      exact ready_whileDue dt (h.inv.of_same rfl rfl rfl rfl fun _ hm => hm) rfl hrest
    · exact h
  | killAllEvents force =>
    unfold EventProcessor.step
    split_ifs with hidle
    · have hqueue : p.queue = p.events := h.queue_eq fun force hc => by
        rw [hidle] at hc
        cases hc
      refine ready_whileLeft (h.inv.of_same ?_ rfl rfl rfl fun _ hm => hm) rfl ?_
      · rw [hqueue]
        rfl
      · exact nofun
    · exact h
  | mark event =>
    refine { h with inv := h.inv.of_same rfl rfl rfl rfl fun e hm => ?_ }
    show ((Function.update p.object event _) e).toAbort = true
    rcases eq_or_ne e event with rfl | hne
    · rw [Function.update_self]
    rw [Function.update_of_ne hne]
    exact hm
  | callback adds result =>
    unfold EventProcessor.step
    cases hcontrol : p.control with
    | idle => exact h
    | updating dt => exact h.updateBody hcontrol hmeets
    | killing force => exact h.killBody hcontrol hmeets

theorem Ready.oneEnd : p.OneEnd := by
  intro e he
  constructor
  · by_cases hopen : p.Queued e ∧ abort e ∉ p.calls
    · rw [h.inv.waiting e he (by simp) hopen.1 hopen.2]
      exact Nat.zero_le 1
    rw [not_and_or, not_not] at hopen
    exact (h.inv.done e he (by simp) hopen).le
  · exact fun hqueued => h.inv.done e he (by simp) (.inl hqueued)

theorem Ready.sound (op : Op) : Sound p op := by
  refine ⟨h.oneEnd, fun x hx => ?_⟩
  cases op with
  | callback adds result =>
    unfold executes at hx
    cases hcontrol : p.control with
    | updating dt =>
      rw [hcontrol] at hx
      obtain ⟨hhead, hmark⟩ := filter_eq_some_iff.mp hx
      obtain ⟨y, hy, hdue⟩ := h.due dt hcontrol
      obtain rfl : x = y := some.inj (hhead.symm.trans hy)
      obtain ⟨events, hevents⟩ : ∃ events, p.events = x :: events := by
        cases hev : p.events with
        | nil =>
          rw [hev] at hhead
          cases hhead
        | cons z zs =>
          rw [hev] at hhead
          obtain rfl := some.inj hhead
          exact ⟨zs, rfl⟩
      have hqueue : p.queue = x :: events := by
        rw [h.queue_eq, hevents]
        intro force hc
        rw [hcontrol] at hc
        cases hc
      have hmem : x ∈ p.queue := hqueue ▸ mem_cons_self
      have habort : abort x.event ∉ p.calls := by
        intro hin
        rw [h.inv.marked _ hin] at hmark
        cases hmark
      refine ⟨hdue, h.inv.waiting _ (h.inv.added x hmem) (by simp) ⟨x, hmem, rfl⟩ habort, habort,
        fun z hz => ?_⟩
      rw [hqueue] at hz
      rcases mem_cons.mp hz with rfl | hz
      · exact .inl rfl
      · exact .inr ((pairwise_cons.mp (hqueue ▸ h.inv.sorted)).1 z hz)
    | _ =>
      rw [hcontrol] at hx
      cases hx
  | _ => cases hx

end

end Steps

/-! ### The order within an update -/

/-- What this `Update` has taken precedes what it will take. -/
structure InOrder (p : Processor) : Prop where
  ran : p.ran.reverse.Pairwise Entry.Precedes
  seq : ∀ y ∈ p.ran, y.seq < p.seq
  ahead : ∀ dt, p.control = .updating dt → ∀ y ∈ p.ran, ∀ z ∈ p.queue, y.Precedes z

section Order

variable {p p' : Processor}

theorem InOrder.of_ran (h : InOrder p) (hran : p'.ran = p.ran) (hseq : p.seq ≤ p'.seq)
    (hcontrol : ∀ dt, p'.control ≠ .updating dt) : InOrder p' where
  ran := hran ▸ h.ran
  seq y hy := lt_of_lt_of_le (h.seq y (hran ▸ hy)) hseq
  ahead dt hc := (hcontrol dt hc).elim

theorem Processor.whileDue_frame (p : Processor) :
    p.whileDue.ran = p.ran ∧ p.whileDue.seq = p.seq ∧ p.whileDue.queue = p.queue := by
  unfold whileDue
  split
  · exact ⟨rfl, rfl, rfl⟩
  · split_ifs <;> exact ⟨rfl, rfl, rfl⟩

theorem Processor.whileLeft_frame (p : Processor) (force : Bool) :
    (p.whileLeft force).ran = p.ran ∧ (p.whileLeft force).seq = p.seq ∧
      ((p.whileLeft force).control = .idle ∨ (p.whileLeft force).control = p.control) := by
  unfold whileLeft
  split
  · exact ⟨rfl, rfl, .inl rfl⟩
  · exact ⟨rfl, rfl, .inr rfl⟩

theorem Processor.killBody_frame (p : Processor) (force : Bool) (adds : List Add) (deletable : Bool) :
    (p.killBody force adds deletable).ran = p.ran ∧ p.seq ≤ (p.killBody force adds deletable).seq ∧
      ((p.killBody force adds deletable).control = .idle ∨
        (p.killBody force adds deletable).control = p.control) := by
  unfold killBody
  split
  · exact ⟨rfl, le_refl _, .inr rfl⟩
  next x rest _ =>
    obtain ⟨-, -, hcontrol, hran, hseq⟩ := addEvents_frame { p.mark x.event with
        events := p.events ++ [x], rest, calls := .abort x.event :: p.calls } adds
    split_ifs
    all_goals
      obtain ⟨h1, h2, h3⟩ := whileLeft_frame _ force
      exact ⟨h1.trans hran, hseq.trans h2.ge, h3.imp_right fun h => h.trans hcontrol⟩

/-- A round of `Update` whose callback schedules nothing before its event. -/
theorem InOrder.updateBody (h : InOrder p) (hready : Ready p) {dt : ℕ}
    (hcontrol : p.control = .updating dt) {adds : List Add} {done : Bool}
    (hmeets : Meets p (.callback adds done)) (hforward : Forward p (.callback adds done)) :
    InOrder (p.updateBody adds done) := by
  cases hevents : p.events with
  | nil =>
    unfold Processor.updateBody
    rw [hevents]
    exact h
  | cons x events =>
    obtain ⟨p1, heq, -, hto, hqueue1, -, hcontrol1, hseq1, hran1⟩ :=
      hready.taken hcontrol hmeets hevents
    obtain ⟨-, -, -, hran, hseq⟩ := p1.addEvents_frame adds
    obtain ⟨hwran, hwseq, hwqueue⟩ := (p1.addEvents adds).whileDue_frame
    have hqueue : p.queue = x :: events := by
      rw [hready.queue_eq, hevents]
      intro force hc
      rw [hcontrol] at hc
      cases hc
    have hmem : x ∈ p.queue := hqueue ▸ mem_cons_self
    have hbefore : ∀ y ∈ p.ran, y.Precedes x := fun y hy => h.ahead dt hcontrol y hy x hmem
    have hxseq : ∀ y ∈ x :: p.ran, y.seq < p.seq := by
      intro y hy
      rcases mem_cons.mp hy with rfl | hy
      · exact hready.inv.seq y hmem
      · exact h.seq y hy
    rw [heq]
    refine ⟨?_, ?_, ?_⟩
    · rw [hwran, hran, hran1, reverse_cons, pairwise_append]
      refine ⟨h.ran, pairwise_singleton _ _, fun y hy z hz => ?_⟩
      rw [mem_singleton.mp hz]
      exact hbefore y (mem_reverse.mp hy)
    · rw [hwran, hran, hran1, hwseq]
      exact fun y hy => lt_of_lt_of_le (hxseq y hy) (hseq1 ▸ hseq)
    intro _ _ y hy z hz
    rw [hwran, hran, hran1] at hy
    rw [hwqueue] at hz
    rcases hto.new z hz with hz | ⟨hzseq, a, ha, hza⟩
    · rw [hqueue1] at hz
      rcases mem_cons.mp hy with rfl | hy
      · exact (pairwise_cons.mp (hqueue ▸ hready.inv.sorted)).1 z hz
      · exact h.ahead dt hcontrol y hy z (hqueue ▸ mem_cons_of_mem _ hz)
    -- a new entry comes behind what was taken: it is not earlier, and younger
    have hxz : x.time ≤ z.time := by
      rw [hza]
      unfold Forward at hforward
      rw [hcontrol] at hforward
      exact hforward x (by rw [hevents]; rfl) a ha
    have hyx : y.time ≤ x.time := by
      rcases mem_cons.mp hy with rfl | hy
      · exact le_refl _
      · exact (hbefore y hy).le
    have := hxseq y hy
    unfold Entry.Precedes
    omega

/-- **Each step** keeps the order of what is taken. -/
theorem InOrder.step (h : InOrder p) (hready : Ready p) {op : Op} (hmeets : Meets p op)
    (hforward : Forward p op) : InOrder (step p op) := by
  cases op with
  | addEvent a =>
    unfold EventProcessor.step
    dsimp only
    split_ifs with hidle
    · obtain ⟨-, -, hcontrol, hran, hseq, -⟩ := p.addEvent_frame a
      refine h.of_ran hran (by omega) fun dt hc => ?_
      rw [hcontrol, hidle] at hc
      cases hc
    · exact h
  | update dt =>
    unfold EventProcessor.step
    split_ifs with hidle
    · unfold update
      obtain ⟨hran, -, -⟩ := whileDue_frame
        { p with time := (p.time + dt) % 2 ^ 64, control := .updating dt, ran := [] }
      refine ⟨?_, ?_, ?_⟩
      · rw [hran]
        exact Pairwise.nil
      · rw [hran]
        exact nofun
      rw [hran]
      exact nofun
    · exact h
  | killAllEvents force =>
    unfold EventProcessor.step
    split_ifs with hidle
    · obtain ⟨hran, hseq, hcontrol⟩ := whileLeft_frame
        { p with aborting := true, control := .killing force, events := [], rest := p.events } force
      refine h.of_ran hran hseq.ge fun dt hc => ?_
      unfold killAllEvents at hc
      rcases hcontrol with h' | h' <;> rw [h'] at hc <;> cases hc
    · exact h
  | mark event => exact { h with }
  | callback adds result =>
    unfold EventProcessor.step
    cases hcontrol : p.control with
    | idle => exact h
    | updating dt => exact h.updateBody hready hcontrol hmeets hforward
    | killing force =>
      obtain ⟨hran, hseq, hcontrol'⟩ := p.killBody_frame force adds result
      refine h.of_ran hran hseq fun dt hc => ?_
      rw [hcontrol] at hcontrol'
      rcases hcontrol' with h' | h' <;> rw [h'] at hc <;> cases hc

end Order

/-- **Events.**  In every run whose steps meet `Meets` every event comes to one end and
those executed are due, neither ended nor aborted, and first in the queue; and what one
`Update` takes it takes in order, if no callback of it schedules something before itself. -/
theorem events_along (ops : List Op) (hmeets : Along step Meets {} ops) :
    Along step Sound {} ops ∧ (ops.foldl step {}).OneEnd ∧
      (Along step Forward {} ops → Along step Ordered {} ops) := by
  refine ⟨?_, ?_, fun hforward => ?_⟩
  · exact Along.of_invariant (fun _ _ h hm => h.step hm) (fun _ _ h _ => h.sound _) ready_init hmeets
  · have hend : Ready (ops.foldl step {}) :=
      Along.invariant_foldl (I := Ready) (fun _ _ h hm => h.step hm) ready_init hmeets
    exact hend.oneEnd
  have hboth : Along step (fun p op => Meets p op ∧ Forward p op) {} ops := hmeets.and hforward
  have hstart : Ready {} ∧ InOrder {} :=
    ⟨ready_init, Pairwise.nil, nofun, nofun⟩
  exact Along.of_invariant (I := fun p => Ready p ∧ InOrder p)
    (fun _ _ h hm => ⟨h.1.step hm.1, h.2.step h.1 hm.1 hm.2⟩) (fun _ _ h _ => h.2.ran) hstart hboth

/-- Two events are due; the first is executed and schedules itself again, the second is
executed to its end, and a forced kill aborts the first. -/
theorem events_along_two :
    let ops : List Op := [.addEvent ⟨1, 10, true⟩, .addEvent ⟨2, 10, true⟩, .update 10,
      .callback [⟨1, 20, false⟩] false, .callback [] true, .killAllEvents true, .callback [] true]
    Along step Sound {} ops ∧ (ops.foldl step {}).OneEnd ∧ Along step Ordered {} ops := by
  intro ops
  have hmeets : Along step Meets {} ops := by
    refine ⟨?_, ?_, trivial, ?_, ?_, trivial, ?_, trivial⟩
    · exact fun _ => by decide
    · exact fun _ => by decide
    · show ∀ x ∈ _, _
      rintro x ⟨⟩
      decide
    · show ∀ x ∈ _, _
      rintro x ⟨⟩
      decide
    refine ⟨by decide, ?_, nofun⟩
    rintro x ⟨⟩
    decide
  obtain ⟨h1, h2, h3⟩ := events_along ops hmeets
  refine ⟨h1, h2, h3 ⟨trivial, trivial, trivial, ?_, ?_, trivial, trivial, trivial⟩⟩
  all_goals
    show ∀ x ∈ _, _
    rintro x ⟨⟩
    decide

/-- **Aborted twice, and dropped.**  An event that is not deletable is aborted by a kill,
stays queued, and is aborted again by the next update; and an event that an `Abort`
callback adds in a forced kill is gone without a call. -/
theorem kill_aborts_twice_and_drops :
    let kept : List Op := [.addEvent ⟨1, 10, true⟩, .killAllEvents false, .callback [] false,
      .update 10, .callback [] true]
    let dropped : List Op := [.addEvent ⟨1, 10, true⟩, .killAllEvents true,
      .callback [⟨2, 20, true⟩] true]
    (kept.foldl step {}).ended 1 = 2 ∧
      2 ∈ (dropped.foldl step {}).added ∧ (dropped.foldl step {}).queue = [] ∧
      (dropped.foldl step {}).ended 2 = 0 ∧ ¬ (dropped.foldl step {}).OneEnd := by
  refine ⟨by decide, by decide, by decide, by decide, fun h => ?_⟩
  have := (h 2 (by decide)).2 (by rintro ⟨x, hx, -⟩; cases hx)
  revert this
  decide

end ZerosCore.EventProcessor
