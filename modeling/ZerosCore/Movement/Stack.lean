/-
# Safety of the stack of movement generators

With the callbacks of the generators free to call the master again, the indices stay in range,
the stack keeps its top and every generator is finalized once, along every run whose steps are
`Regular`:

* `Initialize` runs on an empty stack alone, since the scan of its last `pop` leaves the array;
* `Clear` finds the idle slot filled, and an expiry (`MovementExpired`, or an `Update` that
  returns false) finds the top filled, with a generator below it unless it is the lowest slot;
* `Mutate` does not replace a generator in its `Update` that is not the top any more, since it
  deletes that one directly;
* when the `Finalize` that `Mutate` called returns, the slot is still without a generator to
  lose, and the top has not gone below it.

`Inv` says what holds whenever a generator runs or the master rests.  While `Mutate` waits for a
`Finalize` its slot is empty, so the top may be missing then: `NeedsTop` reads off the frames
whether it has to be there, and `NeedsIdle` whether the idle slot has to be filled.
-/

import Mathlib.Algebra.Order.Group.Multiset
import Mathlib.Data.Multiset.Range
import ZerosCore.Lib.Run
import ZerosCore.Movement.MotionMaster

namespace ZerosCore.Motion

open Lib List Option MotionMaster Function

variable {c c' : MotionMaster} {fs : List Frame} {next : Then} {hand : Multiset ℕ}
  {reset : Bool} {k : Code}

/-! ### Where the generators are -/

/-- The generator of a slot, if it was made with `new`. -/
def ids : Option MovementGenerator → Multiset ℕ
  | some (.made id) => {id}
  | _ => 0

@[simp] theorem ids_none : ids none = 0 := rfl

@[simp] theorem ids_idle : ids (some .idle) = 0 := rfl

@[simp] theorem ids_made (id : ℕ) : ids (some (.made id)) = {id} := rfl

def installed (impl : ℕ → Option MovementGenerator) : Multiset ℕ :=
  ids (impl 0) + ids (impl 1) + ids (impl 2)

/-- The generator a frame is about to install. -/
def Code.held : Code → Multiset ℕ
  | .mutate m _ => ids (some m)
  | _ => 0

def Frame.held : Frame → Multiset ℕ
  | .code k _ => k.held
  | _ => 0

def pending (fs : List Frame) : Multiset ℕ := (fs.map Frame.held).sum

/-- The frames of `UpdateMotion` before it has gone through `_expList`. -/
def Frame.Collects : Frame → Prop
  | .update _ | .expList | .code _ .afterExpired => True
  | .code _ _ => False

variable {i : ℕ}

theorem installed_update (impl : ℕ → Option MovementGenerator) (hi : i < 3)
    (g : Option MovementGenerator) :
    installed (update impl i g) + ids (impl i) = installed impl + ids g := by
  unfold installed
  obtain rfl | rfl | rfl : i = 0 ∨ i = 1 ∨ i = 2 := by omega
  · simp only [update_self, update_of_ne (by decide : (1 : ℕ) ≠ 0),
      update_of_ne (by decide : (2 : ℕ) ≠ 0)]
    ac_rfl
  · simp only [update_self, update_of_ne (by decide : (0 : ℕ) ≠ 1),
      update_of_ne (by decide : (2 : ℕ) ≠ 1)]
    ac_rfl
  simp only [update_self, update_of_ne (by decide : (0 : ℕ) ≠ 2),
    update_of_ne (by decide : (1 : ℕ) ≠ 2)]
  ac_rfl

theorem MovementSlot.index_lt (slot : MovementSlot) : slot.index < 3 := by
  cases slot <;> decide

variable {impl : ℕ → Option MovementGenerator} {g : Option MovementGenerator}

theorem isSome_update_of_ne {j : ℕ} (hne : j ≠ i) (h : (impl j).isSome = true) :
    (update impl i g j).isSome = true := by
  rw [update_of_ne hne]
  exact h

theorem isSome_update_self (impl : ℕ → Option MovementGenerator) {j : ℕ} (hij : i = j)
    (m : MovementGenerator) : (update impl j (some m) i).isSome = true := by
  rw [hij, update_self]
  rfl

/-! ### The invariant -/

/-- The slot `i` holds a generator. -/
def MotionMaster.Filled (c : MotionMaster) (i : ℕ) : Prop := (c.impl i).isSome = true

/-- The top has to be there: no `Mutate` into its slot is waiting, of those that the generator
running now was called by. -/
def NeedsTop (top : ℕ) : List Frame → Prop
  | .code (.mutate _ slot) _ :: fs => top ≠ slot.index ∧ NeedsTop top fs
  | _ => True

/-- The idle slot has to be filled: a `Clear` will go on, and no `Mutate` into that slot comes
back before it. -/
def NeedsIdle : List Frame → Prop
  | [] => False
  | .code (.clean _) _ :: _ => True
  | .code (.mutate _ slot) _ :: fs => slot ≠ .idle ∧ NeedsIdle fs
  | _ :: fs => NeedsIdle fs

/-- The frames of `UpdateMotion` are called from no generator. -/
def Alone : List Frame → Prop
  | [] => True
  | .code _ .done :: fs => Alone fs
  | _ :: fs => fs = []

/-- A `Clear` that deletes directly runs in no `Update`. -/
def Direct : List Frame → Prop
  | [] => True
  | .code (.clean _) _ :: fs => (∀ g, Frame.update g ∉ fs) ∧ Direct fs
  | _ :: fs => Direct fs

/-- What a function of the master keeps while it runs, called from the frames `fs`, with `next`
to come after it and the generators `hand` in its hands. -/
structure Base (fs : List Frame) (next : Then) (hand : Multiset ℕ) (c : MotionMaster) : Prop where
  inRange : c.InRange
  above : ∀ i, c.size ≤ i → c.impl i = none
  noInit : ∀ isStatic n, Frame.code (.doInitialize isStatic) n ∉ fs
  alone : Alone (.code .nothing next :: fs)
  direct : Direct fs
  update : c.update = true ↔ ∃ g, Frame.update g ∈ fs
  exp : c.expList ≠ [] → next = .afterExpired ∨ ∃ f ∈ fs, f.Collects
  count : installed c.impl + pending fs + c.expList + c.finalized + hand = Multiset.range c.made
  running : ∀ id, Frame.update (.made id) ∈ fs → id ∉ c.finalized

/-- What a function leaves, with `next` to come. -/
structure Ready (fs : List Frame) (next : Then) (c : MotionMaster) : Prop
    extends Base fs next 0 c where
  top : (next = .done → NeedsTop (c.size - 1) fs) → c.Filled (c.size - 1)
  idle : NeedsIdle fs → c.Filled 0

/-- **The invariant**, while the innermost generator of `fs` runs. -/
def Inv (fs : List Frame) (c : MotionMaster) : Prop := Ready fs .done c

/-- What a function gets to keeps the invariant. -/
def OutcomeOk (fs : List Frame) (next : Then) : Outcome Code → Prop
  | .done c => Ready fs next c
  | .callback c k => Inv (.code k next :: fs) c

/-- The function gets somewhere, and keeps the invariant there. -/
def Gets (fs : List Frame) (next : Then) (o : Option (Outcome Code)) : Prop :=
  ∃ o', o = some o' ∧ OutcomeOk fs next o'

theorem Base.size_pos (h : Base fs next hand c) : 0 < c.size := h.inRange.1

theorem Base.size_le (h : Base fs next hand c) : c.size ≤ 3 := h.inRange.2

theorem Base.push (h : Base fs next (k.held + hand) c) (hk : ∀ isStatic, k ≠ .doInitialize isStatic)
    (hclean : ∀ r, k = .clean r → ∀ g, Frame.update g ∉ fs) :
    Base (.code k next :: fs) .done hand c where
  inRange := h.inRange
  above := h.above
  noInit := by
    intro isStatic n hmem
    rcases mem_cons.1 hmem with heq | hmem
    · exact hk isStatic (Frame.code.inj heq).1.symm
    · exact h.noInit isStatic n hmem
  alone := by
    cases next <;> exact h.alone
  direct := by
    cases k with
    | clean r => exact ⟨hclean r rfl, h.direct⟩
    | _ => exact h.direct
  update := by
    rw [h.update]
    simp
  exp := by
    intro hexp
    right
    rcases h.exp hexp with rfl | ⟨f, hf, hc⟩
    · exact ⟨_, mem_cons_self, trivial⟩
    · exact ⟨f, mem_cons_of_mem _ hf, hc⟩
  count := by
    rw [← h.count]
    simp only [pending, map_cons, sum_cons, Frame.held]
    ac_rfl
  running := by
    intro id hid
    exact h.running id (by simpa using hid)

theorem Base.unpush (h : Base (.code k next :: fs) .done hand c) :
    Base fs next (k.held + hand) c where
  inRange := h.inRange
  above := h.above
  noInit := fun isStatic n hmem => h.noInit isStatic n (mem_cons_of_mem _ hmem)
  alone := by
    cases next <;> exact h.alone
  direct := by
    cases k with
    | clean r => exact h.direct.2
    | _ => exact h.direct
  update := by
    rw [h.update]
    simp
  exp := by
    intro hexp
    rcases h.exp hexp with hd | ⟨f, hf, hc⟩
    · cases hd
    rcases mem_cons.1 hf with rfl | hf
    · cases next with
      | afterExpired => exact .inl rfl
      | done | updateEnd => exact hc.elim
    · exact .inr ⟨f, hf, hc⟩
  count := by
    rw [← h.count]
    simp only [pending, map_cons, sum_cons, Frame.held]
    ac_rfl
  running := fun id hid => h.running id (mem_cons_of_mem _ hid)

theorem Base.finalize {id : ℕ} (h : Base fs next ({id} + hand) c)
    (hrun : Frame.update (.made id) ∉ fs) :
    Base fs next hand { c with finalized := id :: c.finalized } :=
  { h with
    count := by
      rw [← h.count, ← Multiset.cons_coe, ← Multiset.singleton_add]
      ac_rfl
    running := by
      intro id' hid' hmem
      rcases mem_cons.1 hmem with rfl | hmem
      · exact hrun hid'
      · exact h.running id' hid' hmem }

theorem Base.delayedDelete {g : MovementGenerator} (h : Base fs next (ids (some g) + hand) c)
    (hu : c.update = true) : Base fs next hand (c.delayedDelete g) := by
  cases g with
  | idle =>
    simp only [ids_idle, zero_add] at h
    exact h
  | made id =>
    refine { h with exp := fun _ => ?_, count := ?_ }
    · obtain ⟨r, hr⟩ := h.update.1 hu
      exact .inr ⟨_, hr, trivial⟩
    refine Eq.trans ?_ h.count
    simp only [MotionMaster.delayedDelete, ← Multiset.coe_add, Multiset.coe_singleton, ids_made]
    ac_rfl

theorem Base.write (h : Base fs next (ids g + hand) c) (hi : i < c.size) :
    Base fs next (ids (c.impl i) + hand) { c with impl := Function.update c.impl i g } :=
  { h with
    above := by
      intro j hj
      have hne : j ≠ i := by
        have : c.size ≤ j := hj
        omega
      exact (update_of_ne hne ..).trans (h.above j hj)
    count := by
      have hsize := h.size_le
      have hcount := installed_update c.impl (by omega : i < 3) g
      calc installed (Function.update c.impl i g) + pending fs + c.expList + c.finalized +
            (ids (c.impl i) + hand)
          = (installed (Function.update c.impl i g) + ids (c.impl i)) + pending fs + c.expList +
            c.finalized + hand := by ac_rfl
        _ = (installed c.impl + ids g) + pending fs + c.expList + c.finalized + hand := by rw [hcount]
        _ = installed c.impl + pending fs + c.expList + c.finalized + (ids g + hand) := by ac_rfl
        _ = Multiset.range c.made := h.count }

/-! ### Finding the top -/

variable {n : ℕ}

/-- **The scan ends at the next generator below.** -/
theorem scan_spec (h : ∃ j < n, (impl j).isSome = true) :
    ∃ m, scan impl n = some m ∧ 0 < m ∧ m ≤ n ∧ (impl (m - 1)).isSome = true ∧
      ∀ i, m ≤ i → i < n → impl i = none := by
  induction n with
  | zero =>
    obtain ⟨j, hj, -⟩ := h
    omega
  | succ n ih =>
    by_cases hn : (impl n).isSome = true
    · refine ⟨n + 1, by rw [scan, if_pos hn], by omega, by omega, hn, ?_⟩
      intro i hi hi'
      omega
    have hbelow : ∃ j < n, (impl j).isSome = true := by
      obtain ⟨j, hj, hfill⟩ := h
      have hne : j ≠ n := fun heq => hn (heq ▸ hfill)
      exact ⟨j, by omega, hfill⟩
    obtain ⟨m, hscan, hpos, hle, hfill, hnone⟩ := ih hbelow
    refine ⟨m, by rw [scan, if_neg hn, hscan], hpos, by omega, hfill, ?_⟩
    intro i hi hi'
    rcases Nat.lt_succ_iff_lt_or_eq.1 hi' with hlt | rfl
    · exact hnone i hi hlt
    · exact not_isSome_iff_eq_none.1 hn

section

variable (h : Base fs next hand c)

include h

theorem Base.lower (hpos : 0 < n) (hn : n ≤ c.size)
    (hnone : ∀ i, n ≤ i → i < c.size → c.impl i = none) :
    Base fs next hand { c with size := n } :=
  { h with
    inRange := ⟨hpos, Nat.le_trans hn h.size_le⟩
    above := by
      intro i hi
      by_cases hlt : i < c.size
      · exact hnone i hi hlt
      · exact h.above i (by omega) }

/-- **`pop` with a generator below.** -/
theorem Base.pop (hbelow : ∃ j < c.size - 1, c.Filled j) :
    ∃ n, c.pop = some { c with impl := Function.update c.impl (c.size - 1) none, size := n } ∧
      n < c.size ∧ Base fs next (ids (c.impl (c.size - 1)) + hand)
        { c with impl := Function.update c.impl (c.size - 1) none, size := n } ∧
      (Function.update c.impl (c.size - 1) none (n - 1)).isSome = true ∧
      (c.Filled 0 → (Function.update c.impl (c.size - 1) none 0).isSome = true) := by
  have hpos := h.size_pos
  have hbelow' : ∃ j < c.size, (Function.update c.impl (c.size - 1) none j).isSome = true := by
    obtain ⟨j, hj, hfill⟩ := hbelow
    exact ⟨j, by omega, isSome_update_of_ne (by omega) hfill⟩
  obtain ⟨n, hscan, hn, hle, hfill, hnone⟩ := scan_spec hbelow'
  have hne : n ≠ c.size := by
    rintro rfl
    rw [update_self] at hfill
    cases hfill
  refine ⟨n, by simp [MotionMaster.pop, h.inRange, hscan], by omega, ?_, hfill,
    isSome_update_of_ne (by omega)⟩
  have hwrite := Base.write (g := none) (i := c.size - 1) (by rwa [ids_none, zero_add])
    (by omega : c.size - 1 < c.size)
  exact hwrite.lower hn hle hnone

theorem Base.scanDown (hfill : c.Filled (c.size - 1)) : c.scanDown = some c := by
  have hpos := h.size_pos
  obtain ⟨n, hsize⟩ : ∃ n, c.size = n + 1 := ⟨c.size - 1, by omega⟩
  have hfill' : (c.impl n).isSome = true := by
    have : c.size - 1 = n := by omega
    rw [← this]
    exact hfill
  rw [MotionMaster.scanDown, if_pos h.inRange, hsize, MotionMaster.scan, if_pos hfill', map_some,
    ← hsize]

theorem Base.top : c.top = some (c.impl (c.size - 1)) := by
  rw [MotionMaster.top, if_pos h.inRange]

end

/-! ### Setting the top going -/

theorem Base.ready (h : Base fs next 0 c) (hfill : c.Filled (c.size - 1))
    (hidle : NeedsIdle fs → c.Filled 0) : Ready fs next c :=
  { h with top := fun _ => hfill, idle := hidle }

/-- **`InitTop` or `Reset`, with the top there.** -/
theorem gets_settleTop (h : Base fs next 0 c) (hfill : c.Filled (c.size - 1))
    (hidle : NeedsIdle fs → c.Filled 0) : Gets fs next (c.settleTop reset) := by
  obtain ⟨g, hg⟩ := isSome_iff_exists.1 hfill
  unfold settleTop
  rw [if_pos h.inRange, h.top, hg]
  split_ifs with hgo hinit
  · have hpush : Base (.code .initTop next :: fs) .done 0 c :=
      Base.push (by rw [add_zero]; exact h) (by simp) (by simp)
    exact ⟨_, rfl, hpush.ready hfill hidle⟩
  · have hpush : Base (.code .nothing next :: fs) .done 0 c :=
      Base.push (by rw [add_zero]; exact h) (by simp) (by simp)
    exact ⟨_, rfl, hpush.ready hfill hidle⟩
  · exact ⟨_, rfl, h.ready hfill hidle⟩

theorem Base.not_running (h : Base fs next hand c) (hu : c.update = false)
    (g : MovementGenerator) : Frame.update g ∉ fs := by
  intro hg
  have := h.update.2 ⟨g, hg⟩
  rw [hu] at this
  cases this

/-- A generator in hand is deleted: what follows is run, or left to its `Finalize`. -/
theorem gets_directDelete {g : MovementGenerator} {go : MotionMaster → Option (Outcome Code)}
    (h : Base fs next (ids (some g) + k.held) c)
    (hrun : ∀ id, g = .made id → Frame.update (.made id) ∉ fs)
    (hk : ∀ isStatic, k ≠ .doInitialize isStatic)
    (hclean : ∀ r, k = .clean r → ∀ g, Frame.update g ∉ fs)
    (htop : NeedsTop (c.size - 1) (.code k next :: fs) → c.Filled (c.size - 1))
    (hidle : NeedsIdle (.code k next :: fs) → c.Filled 0)
    (hgo : Base fs next k.held c → Gets fs next (go c)) : Gets fs next (c.directDelete g k go) := by
  cases g with
  | idle =>
    rw [ids_idle, zero_add] at h
    exact hgo h
  | made id =>
    have hfin : Base (.code k next :: fs) .done 0 { c with finalized := id :: c.finalized } :=
      Base.push (by simpa using h.finalize (hrun id rfl)) hk hclean
    exact ⟨_, rfl, { hfin with top := fun ht => htop (ht rfl), idle := hidle }⟩

/-! ### Clearing -/

theorem Base.filled_lowest (h : Base fs next 0 c) (hsize : ¬1 < c.size) (hzero : c.Filled 0) :
    c.Filled (c.size - 1) := by
  have hpos := h.size_pos
  rwa [show c.size - 1 = 0 by omega]

/-- **`DirectClean` ends at the idle slot**, or at the `Finalize` of a generator above it. -/
theorem gets_directCleanLoop (h : Base fs next 0 c) (hn : c.size ≤ n)
    (hu : ∀ g, Frame.update g ∉ fs) (hzero : c.Filled 0) :
    Gets fs next (directCleanLoop reset n c) := by
  induction n generalizing c with
  | zero =>
    have := h.size_pos
    omega
  | succ n ih =>
    unfold directCleanLoop
    split_ifs with hsize
    · obtain ⟨m, hpop, hm, hbase, hfill, hkeep⟩ := h.pop ⟨0, by omega, hzero⟩
      have hzero' := hkeep hzero
      rw [h.top, hpop, bind_some, bind_some]
      cases hcurr : c.impl (c.size - 1) with
      | none =>
        rw [hcurr] at hbase
        exact ih (by simpa using hbase) (by simp only; omega) hzero'
      | some g =>
        rw [hcurr] at hbase
        refine gets_directDelete hbase (fun _ _ => hu _) (by simp) (fun _ _ => hu)
          (fun _ => hfill)
          (fun _ => hzero') fun h' => ih h' (by simp only; omega) hzero'
    exact gets_settleTop h (h.filled_lowest hsize hzero) fun _ => hzero

/-- **`DelayedClean` ends at the idle slot.** -/
theorem ready_delayedCleanLoop (h : Base fs next 0 c) (hn : c.size ≤ n)
    (hu : c.update = true) (hzero : c.Filled 0) :
    ∃ c', delayedCleanLoop n c = some c' ∧ Ready fs next c' := by
  induction n generalizing c with
  | zero =>
    have := h.size_pos
    omega
  | succ n ih =>
    unfold delayedCleanLoop
    split_ifs with hsize
    · obtain ⟨m, hpop, hm, hbase, hfill, hkeep⟩ := h.pop ⟨0, by omega, hzero⟩
      have hzero' := hkeep hzero
      rw [h.top, hpop, bind_some, bind_some]
      cases hcurr : c.impl (c.size - 1) with
      | none =>
        rw [hcurr] at hbase
        exact ih (by simpa using hbase) (by simp only; omega) hu hzero'
      | some g =>
        rw [hcurr] at hbase
        have hdel := hbase.delayedDelete hu
        cases g with
        | idle | made id =>
          exact ih hdel (by simp only [delayedDelete]; omega) hu hzero'
    exact ⟨c, rfl, h.ready (h.filled_lowest hsize hzero) fun _ => hzero⟩

/-! ### Expiring -/

/-- The top is there, with a generator below it unless it is the lowest slot. -/
def MotionMaster.CanExpire (c : MotionMaster) : Prop :=
  c.Filled (c.size - 1) ∧ (1 < c.size → ∃ j < c.size - 1, c.Filled j)

theorem gets_expireEnd (h : Base fs next 0 c) (hfill : c.Filled (c.size - 1))
    (hidle : NeedsIdle fs → c.Filled 0) : Gets fs next (c.expireEnd reset) := by
  rw [expireEnd, h.scanDown hfill, bind_some]
  exact gets_settleTop h hfill hidle

theorem gets_directExpire (h : Base fs next 0 c) (hu : c.update = false) (he : c.CanExpire)
    (hidle : NeedsIdle fs → c.Filled 0) : Gets fs next (c.directExpire reset) := by
  unfold directExpire
  split_ifs with hsize
  · obtain ⟨m, hpop, hm, hbase, hfill, hkeep⟩ := h.pop (he.2 hsize)
    obtain ⟨g, hg⟩ := isSome_iff_exists.1 he.1
    have hidle' := fun hn => hkeep (hidle hn)
    rw [h.top, hpop, hg, bind_some, bind_some, bind_some]
    rw [hg] at hbase
    exact gets_directDelete hbase (fun _ _ => hbase.not_running hu _) (by simp) (by simp)
      (fun _ => hfill) hidle'
      fun h' => gets_expireEnd h' hfill hidle'
  · exact gets_expireEnd h he.1 hidle

theorem ready_delayedExpire (h : Base fs next 0 c) (hu : c.update = true) (he : c.CanExpire)
    (hidle : NeedsIdle fs → c.Filled 0) : ∃ c', c.delayedExpire = some c' ∧ Ready fs next c' := by
  unfold delayedExpire
  split_ifs with hsize
  · obtain ⟨m, hpop, hm, hbase, hfill, hkeep⟩ := h.pop (he.2 hsize)
    obtain ⟨g, hg⟩ := isSome_iff_exists.1 he.1
    have hidle' := fun hn => hkeep (hidle hn)
    rw [h.top, hpop, hg, bind_some, bind_some, bind_some]
    rw [hg] at hbase
    have hdel := hbase.delayedDelete hu
    cases g with
    | idle | made id => exact ⟨_, hdel.scanDown hfill, hdel.ready hfill hidle'⟩
  · exact ⟨c, h.scanDown he.1, h.ready he.1 hidle⟩

theorem Base.setReset (h : Base fs next hand c) (b : Bool) :
    Base fs next hand { c with reset := b } :=
  { h with }

theorem gets_clear (h : Base fs next 0 c) (hzero : c.Filled 0) : Gets fs next (c.clear reset) := by
  unfold clear
  split_ifs with hu
  · obtain ⟨c', hrun, hready⟩ := ready_delayedCleanLoop (h.setReset reset) (Nat.le_refl _) hu hzero
    exact ⟨.done c', by rw [delayedClean, hrun]; rfl, hready⟩
  · exact gets_directCleanLoop h (Nat.le_refl _) (h.not_running (Bool.eq_false_iff.2 hu)) hzero

theorem gets_movementExpired (h : Base fs next 0 c) (he : c.CanExpire)
    (hidle : NeedsIdle fs → c.Filled 0) : Gets fs next (c.movementExpired reset) := by
  unfold movementExpired
  split_ifs with hu
  · obtain ⟨c', hrun, hready⟩ := ready_delayedExpire (h.setReset reset) hu he hidle
    exact ⟨.done c', by rw [hrun]; rfl, hready⟩
  · exact gets_directExpire h (Bool.eq_false_iff.2 hu) he hidle

/-! ### Mutating -/

variable {m : MovementGenerator} {slot : MovementSlot}

/-- **A generator in hand is put in a slot** at or below the top that holds none to lose. -/
theorem gets_install (h : Base fs next (ids (some m)) c) (hslot : slot.index < c.size)
    (hempty : ids (c.impl slot.index) = 0)
    (htop : slot.index ≠ c.size - 1 → (next = .done → NeedsTop (c.size - 1) fs) →
      c.Filled (c.size - 1)) (hidle : slot ≠ .idle → NeedsIdle fs → c.Filled 0) :
    OutcomeOk fs next (c.install m slot) := by
  have hwrite := Base.write (g := some m) (i := slot.index) (by rwa [add_zero]) hslot
  rw [hempty, zero_add] at hwrite
  have hzero : NeedsIdle fs → (update c.impl slot.index (some m) 0).isSome = true := by
    intro hn
    by_cases hs : slot = .idle
    · subst hs
      exact isSome_update_self _ rfl _
    have hne : (0 : ℕ) ≠ slot.index := by
      cases slot with
      | idle => exact absurd rfl hs
      | active | controlled => decide
    exact isSome_update_of_ne hne (hidle hs hn)
  unfold install
  split_ifs with hlt
  · refine { hwrite with top := fun ht => ?_, idle := hzero }
    have hne : c.size - 1 ≠ slot.index := by omega
    exact isSome_update_of_ne hne (htop hne.symm ht)
  have hbase : Base (.code .nothing next :: fs) .done 0
      { c with impl := update c.impl slot.index (some m)
               needInit := update c.needInit slot.index false } :=
    Base.push (by rw [add_zero]; exact { hwrite with }) (by simp) (by simp)
  refine hbase.ready ?_ hzero
  have heq : c.size - 1 = slot.index := by omega
  exact isSome_update_self _ heq _

/-- `Mutate` replaces no generator in its `Update` that is not the top any more. -/
def MotionMaster.CanMutate (c : MotionMaster) (fs : List Frame) (slot : MovementSlot) : Prop :=
  ∀ id, Frame.update (.made id) ∈ fs → c.impl slot.index = some (.made id) → c.size = slot.index + 1

theorem Base.raise (h : Base fs next hand c) (hn : n ≤ 3) :
    Base fs next hand { c with size := max c.size n } :=
  { h with
    inRange := ⟨Nat.lt_of_lt_of_le h.size_pos (Nat.le_max_left ..), Nat.max_le.2 ⟨h.size_le, hn⟩⟩
    above := fun i hi => h.above i (Nat.le_trans (Nat.le_max_left ..) hi) }

/-- **`Mutate` of a generator in hand.** -/
theorem gets_mutate (h : Base fs next (ids (some m)) c)
    (htop : (next = .done → NeedsTop (c.size - 1) fs) → c.Filled (c.size - 1))
    (hidle : NeedsIdle fs → c.Filled 0) (hm : c.CanMutate fs slot) :
    Gets fs next (c.mutate m slot) := by
  unfold mutate
  cases hcurr : c.impl slot.index with
  | none =>
    have hidx := slot.index_lt
    refine ⟨_, rfl, gets_install (h.raise (by omega)) (by simp only; omega) (by simp [hcurr]) ?_
      fun _ => hidle⟩
    intro hne ht
    have hmax : max c.size (slot.index + 1) = c.size := by
      simp only at hne
      omega
    simp only [hmax] at ht ⊢
    exact htop ht
  | some curr =>
    have hslot : slot.index < c.size := by
      by_contra hge
      rw [h.above _ (by omega)] at hcurr
      cases hcurr
    have hwrite := Base.write (g := none) (i := slot.index) (by rwa [ids_none, zero_add]) hslot
    rw [hcurr] at hwrite
    have hzero : slot ≠ .idle → NeedsIdle fs → (update c.impl slot.index none 0).isSome = true := by
      intro hs hn
      refine isSome_update_of_ne ?_ (hidle hn)
      cases slot with
      | idle => exact absurd rfl hs
      | active | controlled => decide
    have htop' : slot.index ≠ c.size - 1 → (next = .done → NeedsTop (c.size - 1) fs) →
        (update c.impl slot.index none (c.size - 1)).isSome = true :=
      fun hne ht => isSome_update_of_ne hne.symm (htop ht)
    have hempty : ids (update c.impl slot.index none slot.index) = 0 := by
      rw [update_self, ids_none]
    simp only
    split_ifs with hdelay
    · have hdel := hwrite.delayedDelete hdelay.2
      refine ⟨_, rfl, ?_⟩
      cases curr with
      | idle | made id => exact gets_install hdel hslot hempty htop' hzero
    have hrun : ∀ id, curr = .made id → Frame.update (.made id) ∉ fs := by
      rintro id rfl hid
      exact hdelay ⟨hm id hid hcurr, h.update.2 ⟨_, hid⟩⟩
    exact gets_directDelete hwrite hrun (by simp) (by simp)
      (fun ht => htop' (fun heq => ht.1 heq.symm) fun _ => ht.2)
      (fun hn => hzero hn.1 hn.2)
      fun h' => ⟨_, rfl, gets_install h' hslot hempty htop' hzero⟩

theorem Base.newGenerator (h : Base fs next 0 c) (isStatic : Bool) :
    Base fs next (ids (some (c.newGenerator isStatic).1)) (c.newGenerator isStatic).2 := by
  cases isStatic with
  | true => exact h
  | false =>
    refine { h with count := ?_ }
    have hcount := h.count
    rw [add_zero] at hcount
    refine (congrArg (· + {c.made}) hcount).trans ?_
    rw [add_comm, Multiset.singleton_add]
    exact (Multiset.range_succ c.made).symm

theorem gets_mutateNew (h : Ready fs next c) {isStatic : Bool}
    (hm : c.CanMutate fs slot) : Gets fs next (c.mutateNew isStatic slot) := by
  have hnew := h.toBase.newGenerator isStatic
  cases isStatic with
  | true | false => exact gets_mutate hnew h.top h.idle hm

/-! ### Updating -/

/-- What a function of `UpdateMotion` gets to keeps the invariant. -/
def FrameOk (fs : List Frame) : Outcome Frame → Prop
  | .done c => Inv fs c
  | .callback c f => Inv (f :: fs) c

/-- The function gets somewhere, and keeps the invariant there. -/
def Leaves (fs : List Frame) (o : Option (Outcome Frame)) : Prop :=
  ∃ o', o = some o' ∧ FrameOk fs o'

theorem Ready.finished (h : Ready fs .updateEnd c) : Inv fs { c with reset := false } := by
  obtain rfl : fs = [] := h.alone
  have hexp : c.expList = [] := by
    by_contra hne
    rcases h.exp hne with heq | ⟨f, hf, -⟩
    · cases heq
    · cases hf
  have hbase : Base [] .done 0 { c with reset := false } :=
    { h with alone := trivial, exp := fun hne => absurd hexp hne }
  exact hbase.ready (h.top (by simp)) fun hn => hn.elim

/-- **The loop over `_expList`**, with the top there. -/
theorem leaves_deleteExpired (h : Base fs .afterExpired 0 c) (hfill : c.Filled (c.size - 1)) :
    Leaves fs c.deleteExpired := by
  obtain rfl : fs = [] := h.alone
  have hidle : NeedsIdle [] → c.Filled 0 := fun hn => hn.elim
  unfold deleteExpired
  split
  · rename_i id rest hexp
    have hbase : Base [.expList] .done 0
        { c with expList := rest, finalized := id :: c.finalized } := by
      refine ⟨h.inRange, h.above, by simp, rfl, h.direct, h.update.trans (by simp), ?_, ?_, by simp⟩
      · exact fun _ => .inr ⟨_, mem_cons_self, trivial⟩
      refine Eq.trans ?_ h.count
      rw [hexp]
      simp only [pending, map_cons, map_nil, sum_cons, sum_nil, Frame.held,
        ← Multiset.cons_coe, ← Multiset.singleton_add]
      ac_rfl
    exact ⟨_, rfl, hbase.ready hfill hidle⟩
  rename_i hexp
  have hbase : Base [] .updateEnd 0 c :=
    { h with alone := rfl, exp := fun hne => absurd hexp hne }
  have hsettle : Gets [] .updateEnd (c.settleTop c.reset) := gets_settleTop hbase hfill hidle
  obtain ⟨o, ho, hok⟩ := hsettle
  rw [ho]
  cases o with
  | callback c' k => exact ⟨_, rfl, hok⟩
  | done c' => exact ⟨_, rfl, hok.finished⟩

/-- **What follows a function of `UpdateMotion`.** -/
theorem leaves_finish (h : Ready fs next c) : Leaves fs (c.finish next) := by
  cases next with
  | done => exact ⟨_, rfl, h⟩
  | updateEnd => exact ⟨_, rfl, h.finished⟩
  | afterExpired =>
    unfold finish
    split_ifs with hexp
    · refine ⟨_, rfl, ?_⟩
      obtain rfl : fs = [] := h.alone
      have hbase : Base [] .done 0 c :=
        { h with alone := trivial, exp := fun hne => absurd hexp hne }
      exact hbase.ready (h.top (by simp)) h.idle
    · exact leaves_deleteExpired h.toBase (h.top (by simp))

theorem Gets.leaves {o : Option (Outcome Code)} (h : Gets fs next o) :
    Leaves fs (o.bind (Outcome.andThen next)) := by
  obtain ⟨o, rfl, hok⟩ := h
  cases o with
  | done c => exact leaves_finish hok
  | callback c k => exact ⟨_, rfl, hok⟩

end ZerosCore.Motion
