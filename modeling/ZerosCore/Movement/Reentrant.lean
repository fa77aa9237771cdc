/-
# Runs of a motion master

The steps of a run are the calls of the master, from outside and from its generators, and the
returns of the generators, in any order.  A step that is `Regular` keeps the invariant
(`inv_step`), so along a run of such steps no index leaves the arrays, the stack has its top
whenever the master rests, and every generator is finalized once, out of its slot and out of its
`Update`.
-/

import ZerosCore.Movement.Stack

namespace ZerosCore.Motion

open Lib List Option MotionMaster

variable {s : State} {fs : List Frame} {c : MotionMaster}

/-! ### Steps -/

/-- What the return of a generator to its frame asks for: a `Mutate` finds its slot without a
generator to lose and not above the top, and an `Update` that ends its movement can expire. -/
def Frame.CanReturn (c : MotionMaster) (b : Bool) : Frame → Prop
  | .code (.mutate _ slot) _ => slot.index < c.size ∧ ids (c.impl slot.index) = 0
  | .update _ => b = false → c.CanExpire
  | .code _ _ | .expList => True

/-- The conditions a step asks for, in the state before it. -/
def Regular (s : State) : Input → Prop
  | .doInitialize _ => s.master.size = 0
  | .mutate _ slot => s.master.CanMutate s.frames slot
  | .clear _ => s.master.Filled 0
  | .movementExpired _ => s.master.CanExpire
  | .updateMotion _ => 0 < s.master.size
  | .ret b =>
    match s.frames with
    | [] => True
    | f :: _ => f.CanReturn s.master b

theorem gets_mutateNew_new (isStatic : Bool) (slot : MovementSlot) :
    Gets [] .done (new.mutateNew isStatic slot) := by
  have hidx := slot.index_lt
  have hbase : ∀ (m : MovementGenerator) (made : ℕ), ids (some m) = Multiset.range made →
      Base [] .done (ids (some m)) { new with size := slot.index + 1, made := made } := by
    intro m made hm
    refine ⟨⟨by simp, by simp only [maxMotionSlot]; omega⟩, fun _ _ => rfl, by simp, trivial,
      trivial, by simp [new], fun hne => absurd rfl hne, ?_, by simp⟩
    simp [new, installed, pending, hm]
  have hinstall : ∀ (m : MovementGenerator) (made : ℕ), ids (some m) = Multiset.range made →
      OutcomeOk [] .done (install { new with size := slot.index + 1, made := made } m slot) :=
    fun m made hm => gets_install (hbase m made hm) (Nat.lt_succ_self _) rfl
      (fun hne => absurd rfl hne) fun _ hn => hn.elim
  cases isStatic with
  | true => cases slot <;> exact ⟨_, rfl, hinstall .idle 0 rfl⟩
  | false => cases slot <;> exact ⟨_, rfl, hinstall (.made 0) 1 rfl⟩

theorem not_filled_new (i : ℕ) : ¬ new.Filled i := by
  simp [MotionMaster.Filled, new]

theorem Base.notMem_installed {next : Then} (h : Base fs next 0 c) {id i : ℕ}
    (hid : id ∈ c.finalized) : c.impl i ≠ some (.made id) := by
  intro hi
  have hslot : i < 3 := by
    by_contra hge
    have hsize := h.size_le
    rw [h.above i (by omega)] at hi
    cases hi
  have hmem : id ∈ installed c.impl := by
    have hids : id ∈ ids (c.impl i) := by simp [hi]
    unfold installed
    obtain rfl | rfl | rfl : i = 0 ∨ i = 1 ∨ i = 2 := by omega
    all_goals simp [hids]
  have hnodup : (installed c.impl + pending fs + c.expList + c.finalized + 0).Nodup := by
    rw [h.count]
    exact Multiset.nodup_range _
  rw [add_zero, Multiset.nodup_add] at hnodup
  exact Multiset.disjoint_left.1 hnodup.2.2 (by simp [hmem]) hid

/-- **`UpdateMotion` up to the generator's `Update`.** -/
theorem leaves_updateMotion (h : Inv [] c) (rooted : Bool) : Leaves [] (c.updateMotion rooted) := by
  unfold updateMotion
  split_ifs with hroot
  · exact ⟨_, rfl, h⟩
  have hfill : c.Filled (c.size - 1) := h.top fun _ => trivial
  obtain ⟨g, hg⟩ := isSome_iff_exists.1 hfill
  rw [h.toBase.top, hg, bind_some, bind_some]
  have hbase : Base [.update g] .done 0 { c with update := true } := by
    refine ⟨h.inRange, h.above, by simp, rfl, trivial, by simp, ?_, ?_, ?_⟩
    · exact fun _ => .inr ⟨_, mem_cons_self, trivial⟩
    · exact h.count
    intro id hid hfin
    have hgid : MovementGenerator.made id = g := by simpa using hid
    rw [← hgid] at hg
    exact h.toBase.notMem_installed hfin hg
  exact ⟨_, rfl, hbase.ready hfill fun hn => hn.elim⟩

/-- **A generator returns to the function that called it.** -/
theorem leaves_after {k : Code} {next : Then} (h : Inv (.code k next :: fs) c) (b : Bool)
    (hr : (Frame.code k next).CanReturn c b) : Gets fs next (c.after k) := by
  have hbase := h.toBase.unpush
  rw [add_zero] at hbase
  cases k with
  | mutate m slot =>
    obtain ⟨hslot, hempty⟩ := hr
    refine ⟨_, rfl, gets_install hbase hslot hempty (fun hne ht => ?_) fun hs hn => h.idle ⟨hs, hn⟩⟩
    refine h.top fun _ => ⟨hne.symm, ?_⟩
    cases next with
    | done => exact ht rfl
    | afterExpired | updateEnd =>
      obtain rfl : fs = [] := hbase.alone
      trivial
  | doInitialize isStatic => exact absurd mem_cons_self (h.noInit isStatic next)
  | clean reset =>
    exact gets_directCleanLoop hbase (Nat.le_refl _) h.direct.1 (h.idle trivial)
  | expire reset => exact gets_expireEnd hbase (h.top fun _ => trivial) h.idle
  | initTop =>
    refine ⟨_, if_pos h.inRange, ?_⟩
    exact { hbase with top := fun _ => h.top fun _ => trivial, idle := h.idle }
  | nothing => exact ⟨_, rfl, hbase.ready (h.top fun _ => trivial) h.idle⟩

/-- **A generator returns.** -/
theorem leaves_resume {f : Frame} (h : Inv (f :: fs) c) (b : Bool)
    (hr : f.CanReturn c b) : Leaves fs (c.resume b f) := by
  cases f with
  | code k next => exact (leaves_after h b hr).leaves
  | update g =>
    obtain rfl : fs = [] := h.alone
    have hbase : Base [] .afterExpired 0 { c with update := false } :=
      ⟨h.inRange, h.above, by simp, rfl, trivial, by simp, fun _ => .inl rfl, h.count, by simp⟩
    have hfill : c.Filled (c.size - 1) := h.top fun _ => trivial
    unfold resume
    cases b with
    | true => exact leaves_finish (hbase.ready hfill fun hn => hn.elim)
    | false => exact (gets_movementExpired hbase (hr rfl) fun hn => hn.elim).leaves
  | expList =>
    obtain rfl : fs = [] := h.alone
    have hbase : Base [] .afterExpired 0 c :=
      ⟨h.inRange, h.above, by simp, rfl, trivial, h.update.trans (by simp), fun _ => .inl rfl,
        h.count, by simp⟩
    exact leaves_deleteExpired hbase (h.top fun _ => trivial)

theorem Leaves.inv {o : Option (Outcome Frame)} (h : Leaves fs o) :
    ∃ s', o.map (Outcome.state fs) = some s' ∧ Inv s'.frames s'.master := by
  obtain ⟨o, rfl, hok⟩ := h
  cases o with
  | done c | callback c f => exact ⟨_, rfl, hok⟩

/-- A new master, or one that keeps the invariant. -/
def Stable (s : State) : Prop := s = initial ∨ Inv s.frames s.master

/-- **A regular step keeps the invariant.** -/
theorem inv_step (h : Stable s) {i : Input} (hp : Proper s i) (hr : Regular s i) :
    ∃ s', s.step i = some s' ∧ Inv s'.frames s'.master := by
  rcases h with rfl | h
  · cases i with
    | doInitialize isStatic => exact (gets_mutateNew_new isStatic .idle).leaves.inv
    | mutate isStatic slot => exact (gets_mutateNew_new isStatic slot).leaves.inv
    | clear reset => exact absurd hr (not_filled_new _)
    | movementExpired reset => exact absurd hr.1 (not_filled_new _)
    | updateMotion rooted => exact absurd hr (Nat.lt_irrefl _)
    | ret b => exact absurd rfl hp
  obtain ⟨c, fs⟩ := s
  cases i with
  | doInitialize isStatic =>
    have hpos : 0 < c.size := h.toBase.size_pos
    have hzero : c.size = 0 := hr
    omega
  | mutate isStatic slot => exact (gets_mutateNew h hr).leaves.inv
  | clear reset => exact (gets_clear h.toBase hr).leaves.inv
  | movementExpired reset => exact (gets_movementExpired h.toBase hr h.idle).leaves.inv
  | updateMotion rooted =>
    obtain rfl : fs = [] := hp
    exact (leaves_updateMotion h rooted).inv
  | ret b =>
    cases fs with
    | nil => exact absurd rfl hp
    | cons f fs => exact (leaves_resume h b hr).inv

/-! ### Runs -/

/-- What is asked of a state: whenever the master rests the stack has a top and nothing
above it; a generator is finalized once, in no slot and not in its `Update`; and whenever the
master rests every generator made is in a slot or finalized. -/
structure Safe (s : State) : Prop where
  stack : s.frames = [] → s.master.InRange ∧ s.master.Filled (s.master.size - 1) ∧
    ∀ i, s.master.size ≤ i → s.master.impl i = none
  once : s.master.finalized.Nodup
  uninstalled : ∀ id ∈ s.master.finalized, ∀ i, s.master.impl i ≠ some (.made id)
  returned : ∀ id ∈ s.master.finalized, Frame.update (.made id) ∉ s.frames
  kept : s.frames = [] → ∀ id < s.master.made,
    id ∈ s.master.finalized ∨ ∃ i < maxMotionSlot, s.master.impl i = some (.made id)

theorem exists_slot_of_mem_installed {impl : ℕ → Option MovementGenerator} {id : ℕ}
    (h : id ∈ installed impl) : ∃ i < maxMotionSlot, impl i = some (.made id) := by
  have hids : ∀ g : Option MovementGenerator, id ∈ ids g → g = some (.made id) := by
    intro g hg
    match g, hg with
    | some (.made id'), hg => rw [Multiset.mem_singleton.1 hg]
  unfold installed at h
  rcases Multiset.mem_add.1 h with h | h
  · rcases Multiset.mem_add.1 h with h | h
    · exact ⟨0, by decide, hids _ h⟩
    · exact ⟨1, by decide, hids _ h⟩
  · exact ⟨2, by decide, hids _ h⟩

/-- **The invariant is enough.** -/
theorem Inv.safe (h : Inv s.frames s.master) : Safe s := by
  have hnodup : (installed s.master.impl + pending s.frames + s.master.expList +
      s.master.finalized + 0).Nodup := by
    rw [h.count]
    exact Multiset.nodup_range _
  rw [add_zero, Multiset.nodup_add] at hnodup
  refine ⟨fun hrest => ⟨h.inRange, h.top fun _ => by rw [hrest]; trivial, h.above⟩, hnodup.2.1,
    fun id hid i => h.toBase.notMem_installed hid, fun id hid hrun => h.running id hrun hid, ?_⟩
  intro hrest id hid
  have hexp : s.master.expList = [] := by
    by_contra hne
    rcases h.exp hne with heq | ⟨f, hf, -⟩
    · cases heq
    rw [hrest] at hf
    cases hf
  have hcount := h.count
  rw [hrest, hexp] at hcount
  have hmem : id ∈ Multiset.range s.master.made := Multiset.mem_range.2 hid
  rw [← hcount] at hmem
  simp only [pending, map_nil, sum_nil, add_zero, Multiset.coe_nil, Multiset.mem_add,
    Multiset.mem_coe] at hmem
  rcases hmem with hmem | hmem
  · exact .inr (exists_slot_of_mem_installed hmem)
  · exact .inl hmem

/-- A step that can come in. -/
def ProperAt : Option State → Input → Prop
  | some s, i => Proper s i
  | none, _ => True

/-- A step that can come in and meets its conditions. -/
def RegularAt : Option State → Input → Prop
  | some s, i => Proper s i ∧ Regular s i
  | none, _ => True

def SafeAt (s : Option State) (i : Input) : Prop := ∃ s', step s i = some s' ∧ Safe s'

/-- **Regular runs are safe.**  Along every run of regular calls and returns on a new master, in
any nesting, every index is in range and no null generator is called, and every state is safe. -/
theorem safe_of_regular {run : List Input} (h : Along step RegularAt (some initial) run) :
    Along step SafeAt (some initial) run := by
  have hkey : ∀ (o : Option State) (i : Input), (∃ s, o = some s ∧ Stable s) → RegularAt o i →
      ∃ s', step o i = some s' ∧ Inv s'.frames s'.master := by
    rintro o i ⟨s, rfl, hs⟩ ⟨hp, hr⟩
    exact inv_step hs hp hr
  refine Along.of_invariant (I := fun o => ∃ s, o = some s ∧ Stable s) ?_ ?_
    ⟨initial, rfl, .inl rfl⟩ h
  · intro o i ho hr
    obtain ⟨s', hstep, hinv⟩ := hkey o i ho hr
    exact ⟨s', hstep, .inr hinv⟩
  intro o i ho hr
  obtain ⟨s', hstep, hinv⟩ := hkey o i ho hr
  exact ⟨s', hstep, hinv.safe⟩

instance (c : MotionMaster) (i : ℕ) : Decidable (c.Filled i) :=
  inferInstanceAs (Decidable (_ = true))

instance (c : MotionMaster) : Decidable c.CanExpire := inferInstanceAs (Decidable (_ ∧ _))

instance (c : MotionMaster) (fs : List Frame) (slot : MovementSlot) :
    Decidable (c.CanMutate fs slot) :=
  match h : c.impl slot.index with
  | some (.made id) =>
    decidable_of_iff (Frame.update (.made id) ∈ fs → c.size = slot.index + 1)
      ⟨fun hc id' hmem heq => hc (by rw [h] at heq; cases heq; exact hmem),
        fun hc hmem => hc id hmem h⟩
  | some .idle => .isTrue fun _ _ heq => by rw [h] at heq; cases heq
  | none => .isTrue fun _ _ heq => by rw [h] at heq; cases heq

instance (c : MotionMaster) (b : Bool) : DecidablePred (Frame.CanReturn c b)
  | .code (.mutate _ _) _ => inferInstanceAs (Decidable (_ ∧ _))
  | .update _ => inferInstanceAs (Decidable (b = false → c.CanExpire))
  | .code (.doInitialize _) _ | .code (.clean _) _ | .code (.expire _) _ | .code .initTop _
  | .code .nothing _ | .expList => .isTrue trivial

instance (s : State) : DecidablePred (Regular s)
  | .doInitialize _ => inferInstanceAs (Decidable (s.master.size = 0))
  | .mutate _ slot => inferInstanceAs (Decidable (s.master.CanMutate s.frames slot))
  | .clear _ => inferInstanceAs (Decidable (s.master.Filled 0))
  | .movementExpired _ => inferInstanceAs (Decidable s.master.CanExpire)
  | .updateMotion _ => inferInstanceAs (Decidable (0 < s.master.size))
  | .ret b =>
    match hf : s.frames with
    | [] => .isTrue (by simp [Regular, hf])
    | f :: _ => decidable_of_iff (f.CanReturn s.master b) (by simp [Regular, hf])

instance : ∀ (o : Option State) (i : Input), Decidable (RegularAt o i)
  | some s, i => inferInstanceAs (Decidable (Proper s i ∧ Regular s i))
  | none, _ => .isTrue trivial

/-- A chase that clears the stack from its own `Update`, with a `Finalize` that starts the next
movement: the chase is finalized after its `Update`. -/
def clearInUpdate : List Input :=
  [.doInitialize true, .ret true, .mutate false .active, .ret true, .updateMotion false,
    .clear true, .ret true, .mutate false .controlled, .ret true, .ret true]

theorem safe_of_regular_clearInUpdate : Along step SafeAt (some initial) clearInUpdate :=
  safe_of_regular (by decide +kernel)

instance : ∀ (o : Option State) (i : Input), Decidable (ProperAt o i)
  | some s, i => inferInstanceAs (Decidable (Proper s i))
  | none, _ => .isTrue trivial

/-- **`Initialize` leaves the array.**  A unit is initialized a second time: `Initialize` pops
the last generator, and the scan goes on below the first slot. -/
theorem initialize_leaves_array :
    Along step ProperAt (some initial) [.doInitialize true, .ret true, .doInitialize true] ∧
    ¬ Along step SafeAt (some initial) [.doInitialize true, .ret true, .doInitialize true] := by
  refine ⟨by decide +kernel, fun h => ?_⟩
  obtain ⟨s', hstep, -⟩ := h.2.2.1
  have hnone : step (step (step (some initial) (.doInitialize true)) (.ret true))
      (.doInitialize true) = none := isNone_iff_eq_none.1 (by decide +kernel)
  rw [hnone] at hstep
  cases hstep

end ZerosCore.Motion
