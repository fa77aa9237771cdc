/-
# Who sits where

A join picks its seat when it is made and takes it when it is executed, and between the
two anything may happen to the vehicle.  `VehicleJoinEvent::Execute` looks neither at the
seat nor at the passenger: it is the order of the other operations that keeps the seat of
a live join empty (`Orderly`), and nothing keeps the passenger off the other seats.  A unit
with two joins for two seats takes both, and leaves one of them behind when it goes.
`SetVehicleId` builds new seats and keeps the count of the usable ones from the old ones.

Along every run in which no join is executed whose passenger has a seat (or is the vehicle
itself), and `SetVehicleId` changes between entries with the same number of usable seats
(`Regular`), a unit has one seat at most, nobody is put on a taken seat and
`UsableSeatNum` counts the empty seats one can enter (`seats_of_regular`).  That a join
never boards once it is aborted, or once the vehicle is uninstalled, holds in every run.
-/

import ZerosCore.Lib.Run
import ZerosCore.Vehicles.Vehicle

namespace ZerosCore.Vehicles.Vehicle

open Lib Lib.Keyed List Option Vehicle

variable {s s' s'' : Vehicle} {x : Option ℕ} {u w : ℕ}

/-! ### What a step should leave -/

def Seated (s : Vehicle) (unit : ℕ) : Prop := ∃ seat ∈ s.seats.rows, seat.passenger = some unit

/-- A unit has one seat at most. -/
def SeatedOnce (s : Vehicle) : Prop :=
  ∀ a ∈ s.seats.rows, ∀ b ∈ s.seats.rows, ∀ unit, a.passenger = some unit →
    b.passenger = some unit → a.id = b.id

/-- `UsableSeatNum` is the number of empty seats that can be entered or exited. -/
def Counted (s : Vehicle) : Prop := s.usableSeatNum = s.seats.rows.countP VehicleSeat.usable

instance (s : Vehicle) : Decidable s.Counted :=
  inferInstanceAs (Decidable (s.usableSeatNum = s.seats.rows.countP VehicleSeat.usable))

/-- What a step from `s` to `s'` leaves of the seats: nobody sits twice, who sits on a seat
afterwards did not take it from another, and the free seats are counted. -/
structure SeatsKept (s s' : Vehicle) : Prop where
  once : s'.SeatedOnce
  replaced : ∀ a ∈ s.seats.rows, ∀ b ∈ s'.seats.rows, a.id = b.id → ∀ u w,
    a.passenger = some u → b.passenger = some w → u = w
  counted : s'.Counted
  asserted : s'.failed ≠ some .usableSeatNum

/-- The join has been made, and no live event of it is left. -/
def Aborted (s : Vehicle) (id : ℕ) : Prop :=
  id < s.nextEvent ∧ ∀ e ∈ s.events, e.id = id → e.toAbort = true

/-- The join does not board in the run. -/
def NeverBoards (store : ℕ → Option VehicleEntry) (s : Vehicle) (id : ℕ) (rs : List Request) :
    Prop :=
  Along (step store) (fun s r => s.boards r ≠ some id) s rs

/-- No join is executed whose passenger has a seat or is the base, and a new entry has as
many usable seats as the old one. -/
def Regular (store : ℕ → Option VehicleEntry) (s : Vehicle) : Request → Prop
  | .runEvent id => ∀ e ∈ s.event id, e.toAbort = false →
      e.passenger ≠ s.me ∧ s.getSeatIteratorForPassenger e.passenger = none
  | .setVehicleId id => ∀ ve ∈ store id, ve.usableSeats = s.vehicleInfo.usableSeats
  | _ => True

instance (store : ℕ → Option VehicleEntry) (s : Vehicle) :
    (r : Request) → Decidable (s.Regular store r)
  | .runEvent id => inferInstanceAs (Decidable (∀ e ∈ s.event id, _ → _ ∧ _))
  | .setVehicleId id => inferInstanceAs (Decidable (∀ ve ∈ store id, _ = _))
  | .install | .applyAura _ | .removeAura _ | .addPassenger _ _ | .exitVehicle _
  | .ejectPassenger _ | .removePassenger _ | .removeAllPassengers | .uninstall
  | .killEvent _ => .isTrue trivial

theorem getSeatIteratorForPassenger_eq_none :
    s.getSeatIteratorForPassenger u = none ↔ ¬s.Seated u := by
  simp [getSeatIteratorForPassenger, Seated]

theorem mem_rows_setPassenger {seatId : ℕ} {b : VehicleSeat} :
    b ∈ (s.setPassenger seatId x).seats.rows ↔ (b ∈ s.seats.rows ∧ b.id ≠ seatId) ∨
      ∃ a ∈ s.seats.rows, a.id = seatId ∧ { a with passenger := x } = b :=
  mem_modify

/-! ### Letting go -/

/-- What a seat keeps when its passenger changes. -/
def place (seat : VehicleSeat) : ℕ × VehicleSeatEntry := (seat.id, seat.seatInfo)

/-- Whoever sits on a seat afterwards sat on it before. -/
def Frees (s s' : Vehicle) : Prop :=
  ∀ b ∈ s'.seats.rows, ∀ u, b.passenger = some u → b ∈ s.seats.rows

/-- Joins go or are marked, and none is new. -/
def Marks (s s' : Vehicle) : Prop :=
  ∀ e' ∈ s'.events, e' ∈ s.events ∨ e'.toAbort = true ∧ ∃ e ∈ s.events, e.id = e'.id

/-- **Letting go**: seats are emptied and joins marked, and nothing else happens to seats
and joins.  All that removes passengers or joins is of this kind. -/
structure Releases (s s' : Vehicle) : Prop where
  me : s'.me = s.me
  status : s'.status = s.status
  vehicleInfo : s'.vehicleInfo = s.vehicleInfo
  nextEvent : s'.nextEvent = s.nextEvent
  failed : s'.failed = s.failed
  shape : s'.seats.rows.map place = s.seats.rows.map place
  frees : Frees s s'
  marks : Marks s s'

theorem Releases.refl (s : Vehicle) : Releases s s :=
  ⟨rfl, rfl, rfl, rfl, rfl, rfl, fun _ hb _ _ => hb, fun _ he => .inl he⟩

theorem Releases.trans (h : Releases s s') (h' : Releases s' s'') : Releases s s'' where
  me := h'.me.trans h.me
  status := h'.status.trans h.status
  vehicleInfo := h'.vehicleInfo.trans h.vehicleInfo
  nextEvent := h'.nextEvent.trans h.nextEvent
  failed := h'.failed.trans h.failed
  shape := h'.shape.trans h.shape
  frees b hb u hu := h.frees b (h'.frees b hb u hu) u hu
  marks e'' he'' := by
    rcases h'.marks e'' he'' with he' | ⟨htrue, e', he', hid⟩
    · exact h.marks e'' he'
    right
    rcases h.marks e' he' with he | ⟨-, e, he, hid'⟩
    · exact ⟨htrue, e', he, hid⟩
    · exact ⟨htrue, e, he, hid'.trans hid⟩

theorem Releases.seated (h : Releases s s') (hw : s'.Seated w) : s.Seated w := by
  obtain ⟨seat, hmem, hpass⟩ := hw
  exact ⟨seat, h.frees seat hmem w hpass, hpass⟩

theorem Releases.stays (h : Releases s s') {a : VehicleSeat} (ha : a ∈ s.seats.rows) :
    ∃ b ∈ s'.seats.rows, b.id = a.id ∧ (b.passenger = none ∨ b = a) := by
  have hplace : place a ∈ s'.seats.rows.map place := by
    rw [h.shape]
    exact mem_map_of_mem ha
  obtain ⟨b, hb, hba⟩ := mem_map.mp hplace
  have hid : b.id = a.id := congrArg Prod.fst hba
  refine ⟨b, hb, hid, ?_⟩
  cases hpass : b.passenger with
  | none => exact .inl rfl
  | some u => exact .inr (s.seats.distinct.eq_of_key (h.frees b hb u hpass) ha hid)

theorem releases_foldl {f : Vehicle → ℕ → Vehicle} (hf : ∀ s u, Releases s (f s u))
    (l : List ℕ) (s : Vehicle) : Releases s (l.foldl f s) := by
  induction l generalizing s with
  | nil => exact Releases.refl s
  | cons u l ih => exact (hf s u).trans (ih (f s u))

theorem map_place_setPassenger (s : Vehicle) (seatId : ℕ) (x : Option ℕ) :
    (s.setPassenger seatId x).seats.rows.map place = s.seats.rows.map place := by
  simp only [setPassenger, Table.modify, Keyed.modify, List.map_map]
  refine List.map_congr_left fun seat _ => ?_
  simp only [Function.comp_apply]
  split <;> rfl

theorem releases_setPassenger_none (s : Vehicle) (seatId : ℕ) :
    Releases s (s.setPassenger seatId none) :=
  { Releases.refl s with
    shape := map_place_setPassenger s seatId none
    frees := fun b hb u hu => by
      rcases mem_rows_setPassenger.mp hb with ⟨hmem, -⟩ | ⟨a, -, -, rfl⟩
      · exact hmem
      · exact absurd hu (by simp) }

/-- Rewriting joins, if what changes of a join is that it is marked. -/
theorem releases_map (s : Vehicle) {f : VehicleJoinEvent → VehicleJoinEvent}
    (hf : ∀ e, f e = e ∨ (f e).toAbort = true ∧ (f e).id = e.id) :
    Releases s { s with events := s.events.map f } :=
  { Releases.refl s with
    marks := fun e' he' => by
      obtain ⟨e, he, rfl⟩ := mem_map.mp he'
      rcases hf e with hsame | ⟨habort, hid⟩
      · exact .inl (hsame.symm ▸ he)
      · exact .inr ⟨habort, e, he, hid.symm⟩ }

theorem releases_removePendingEvents (s : Vehicle) (p : VehicleJoinEvent → Bool) :
    Releases s (s.removePendingEvents p) :=
  releases_map s fun e => by
    split
    · exact .inr ⟨rfl, rfl⟩
    · exact .inl rfl

theorem releases_removePassenger (s : Vehicle) (unit : ℕ) :
    Releases s (s.removePassenger unit) := by
  unfold removePassenger
  split
  · exact Releases.refl s
  split
  · exact Releases.refl s
  rename_i seat _
  have h := releases_setPassenger_none s seat.id
  split
  · exact { h with }
  · exact h

theorem releases_exitVehicleNow (s : Vehicle) (unit : ℕ) : Releases s (s.exitVehicleNow unit) := by
  unfold exitVehicleNow
  split
  · exact Releases.refl s
  have h := releases_removePassenger s unit
  exact { h with }

theorem releases_unapplyControlVehicle (s : Vehicle) (caster : ℕ) :
    Releases s (s.unapplyControlVehicle caster) := by
  unfold unapplyControlVehicle
  split
  · exact Releases.refl s
  · exact (releases_removePendingEvents s _).trans (releases_exitVehicleNow _ caster)

theorem releases_removeAura (s : Vehicle) (caster : ℕ) : Releases s (s.removeAura caster) := by
  unfold removeAura
  split
  · have h := releases_unapplyControlVehicle { s with auras := s.auras.erase caster } caster
    exact { h with }
  · exact Releases.refl s

theorem releases_removeAurasByCaster (s : Vehicle) (caster : ℕ) :
    Releases s (s.removeAurasByCaster caster) :=
  releases_foldl releases_removeAura _ s

theorem releases_exitVehicle (s : Vehicle) (unit : ℕ) : Releases s (s.exitVehicle unit) := by
  unfold exitVehicle
  split
  · exact Releases.refl s
  · exact releases_removeAurasByCaster s unit

theorem releases_abortPendingEvents (s : Vehicle) : Releases s s.abortPendingEvents :=
  releases_map s fun e => by
    split
    · exact .inr ⟨rfl, rfl⟩
    · exact .inl rfl

theorem releases_removeAllPassengers (s : Vehicle) : Releases s s.removeAllPassengers :=
  (releases_abortPendingEvents s).trans (releases_foldl releases_removeAura _ _)

theorem releases_ejectPassenger (s : Vehicle) (unit : ℕ) : Releases s (s.ejectPassenger unit) := by
  unfold ejectPassenger
  split
  · exact Releases.refl s
  split
  · exact Releases.refl s
  · exact (releases_removePassenger s unit).trans (releases_exitVehicle _ unit)

theorem releases_abort (s : Vehicle) (e : VehicleJoinEvent) : Releases s (s.abort e) := by
  unfold abort
  split
  · exact releases_removeAurasByCaster s _
  · exact Releases.refl s

theorem releases_deleteEvent (s : Vehicle) (id : ℕ) : Releases s (s.deleteEvent id) :=
  ⟨rfl, rfl, rfl, rfl, rfl, rfl, fun _ hb _ _ => hb, fun _ he => .inl (mem_filter.mp he).1⟩

/-! ### The order that is kept -/

/-- **The order of a vehicle.**  Who sits on it is aboard, holds an aura on it and is not
the vehicle itself, the count of the usable seats is right, and a live join is on the list
of the vehicle and has an empty seat, or the seat of `x`, who is about to be sent off. -/
structure Orderly (x : Option ℕ) (s : Vehicle) : Prop where
  room : s.seats.rows.length ≤ maxVehicleSeats
  once : ∀ a ∈ s.seats.rows, ∀ b ∈ s.seats.rows, ∀ unit, a.passenger = some unit →
    b.passenger = some unit → a = b
  counted : s.Counted
  held : ∀ u, s.Seated u → u ∈ s.aboard ∧ u ∈ s.auras ∧ u ≠ s.me
  waiting : ∀ e ∈ s.events, e.toAbort = false →
    ∃ seat ∈ s.seats.rows, e.seat = some seat.id ∧ (seat.passenger = none ∨ seat.passenger = x)
  sound : s.failed ≠ some .usableSeatNum ∧ s.failed ≠ some .seat

/-- The seats one can enter or exit are as many as the entry has. -/
def Built (s : Vehicle) : Prop :=
  s.seats.rows.countP (fun seat => seat.seatInfo.canEnterOrExit) = s.vehicleInfo.usableSeats

def Listed (s : Vehicle) : Prop := ∀ e ∈ s.events, e.toAbort = false → e.pending = true

/-- What every step that is regular keeps. -/
structure Inv (s : Vehicle) : Prop where
  orderly : Orderly none s
  built : s.Built
  listed : s.Listed

theorem countP_canEnterOrExit (hshape : s'.seats.rows.map place = s.seats.rows.map place) :
    s'.seats.rows.countP (·.seatInfo.canEnterOrExit) =
      s.seats.rows.countP (·.seatInfo.canEnterOrExit) := by
  have hplace : ∀ l : List VehicleSeat, l.countP (·.seatInfo.canEnterOrExit) =
      (l.map place).countP fun p => p.2.canEnterOrExit := fun l => by
    rw [countP_map]
    rfl
  rw [hplace, hshape, ← hplace]

theorem Built.of_releases (h : s.Built) (hr : Releases s s') : s'.Built := by
  unfold Built
  rw [countP_canEnterOrExit hr.shape, hr.vehicleInfo]
  exact h

theorem Listed.of_marks (h : s.Listed) (hmarks : Marks s s') : s'.Listed := by
  intro e he hlive
  rcases hmarks e he with hmem | ⟨htrue, -⟩
  · exact h e hmem hlive
  · exact absurd (htrue.symm.trans hlive) (by decide)

theorem Orderly.seatedOnce (h : Orderly x s) : s.SeatedOnce :=
  fun a ha b hb unit hua hub => congrArg VehicleSeat.id (h.once a ha b hb unit hua hub)

theorem Orderly.of_releases (h : Orderly x s) (hr : Releases s s') (hcount : s'.Counted)
    (hheld : ∀ u, s'.Seated u → u ∈ s'.aboard ∧ u ∈ s'.auras) : Orderly x s' where
  room := by
    have hlen := congrArg List.length hr.shape
    rw [length_map, length_map] at hlen
    exact hlen.trans_le h.room
  once a ha b hb unit hua hub :=
    h.once a (hr.frees a ha unit hua) b (hr.frees b hb unit hub) unit hua hub
  counted := hcount
  held u hu := ⟨(hheld u hu).1, (hheld u hu).2, hr.me ▸ (h.held u (hr.seated hu)).2.2⟩
  waiting e he hlive := by
    rcases hr.marks e he with hmem | ⟨htrue, -⟩
    · obtain ⟨seat, hseat, hid, hpass⟩ := h.waiting e hmem hlive
      obtain ⟨b, hb, hbid, hb'⟩ := hr.stays hseat
      refine ⟨b, hb, hid.trans (congrArg some hbid.symm), ?_⟩
      rcases hb' with hnone | rfl
      · exact .inl hnone
      · exact hpass
    · exact absurd (htrue.symm.trans hlive) (by decide)
  sound := by
    rw [hr.failed]
    exact h.sound

theorem Orderly.done (h : Orderly x s) (hx : ∀ u, x = some u → ¬s.Seated u) : Orderly none s :=
  { h with
    waiting e he hlive := by
      obtain ⟨seat, hseat, hid, hpass⟩ := h.waiting e he hlive
      refine ⟨seat, hseat, hid, .inl ?_⟩
      cases hseatPass : seat.passenger with
      | none => rfl
      | some u =>
        rcases hpass with hnone | hxu
        · rw [hseatPass] at hnone
          exact hnone
        rw [hseatPass] at hxu
        exact absurd ⟨seat, hseat, hseatPass⟩ (hx u hxu.symm) }

variable {seat : VehicleSeat}

theorem countP_setPassenger (hseat : seat ∈ s.seats.rows) :
    (s.setPassenger seat.id x).seats.rows.countP VehicleSeat.usable +
        (if seat.usable then 1 else 0) = s.seats.rows.countP VehicleSeat.usable +
        (if VehicleSeat.usable { seat with passenger := x } then 1 else 0) :=
  Table.countP_modify (Table.get?_key hseat) (fun seat => { seat with passenger := x })
    (fun _ => rfl) VehicleSeat.usable

theorem Orderly.counted_removePassenger (h : Orderly x s) (unit : ℕ) :
    (s.removePassenger unit).Counted := by
  unfold removePassenger
  split
  · exact h.counted
  split
  · exact h.counted
  rename_i seat hseat
  have hmem := mem_of_find?_eq_some hseat
  have hpass : seat.passenger = some unit := by simpa using find?_some hseat
  have hcount := countP_setPassenger (x := none) hmem
  have hlen : s.seats.rows.countP VehicleSeat.usable ≤ maxVehicleSeats :=
    countP_le_length.trans h.room
  have hold := h.counted
  simp only [VehicleSeat.usable, hpass, isNone_some, isNone_none,
    Bool.false_and, Bool.true_and, Bool.false_eq_true, if_false, Nat.add_zero] at hcount
  unfold Counted at hold
  unfold maxVehicleSeats at hlen
  split
  · rename_i hcan
    rw [if_pos hcan] at hcount
    show (s.usableSeatNum + 1) % 2 ^ 32 =
      (s.setPassenger seat.id none).seats.rows.countP VehicleSeat.usable
    rw [hold]
    exact (Nat.mod_eq_of_lt (by omega)).trans hcount.symm
  rename_i hcan
  rw [if_neg hcan] at hcount
  exact hold.trans hcount.symm

theorem aboard_removePassenger (s : Vehicle) (unit : ℕ) :
    (s.removePassenger unit).aboard = s.aboard ∧ (s.removePassenger unit).auras = s.auras := by
  unfold removePassenger
  split
  · exact ⟨rfl, rfl⟩
  split
  · exact ⟨rfl, rfl⟩
  · split <;> exact ⟨rfl, rfl⟩

section

variable (h : Orderly x s)

include h

theorem Orderly.removePassenger (unit : ℕ) : Orderly x (s.removePassenger unit) := by
  have hr := releases_removePassenger s unit
  refine h.of_releases hr (h.counted_removePassenger unit) fun u hu => ?_
  obtain ⟨haboard, hauras⟩ := aboard_removePassenger s unit
  rw [haboard, hauras]
  exact ⟨(h.held u (hr.seated hu)).1, (h.held u (hr.seated hu)).2.1⟩

/-- Who is removed sits nowhere: the first seat with the unit is the only one. -/
theorem Orderly.not_seated_removePassenger (unit : ℕ) : ¬(s.removePassenger unit).Seated unit := by
  rintro ⟨b, hb, hpass⟩
  have hold := (releases_removePassenger s unit).frees b hb unit hpass
  have haboard := (h.held unit ⟨b, hold, hpass⟩).1
  unfold Vehicle.removePassenger at hb
  rw [if_neg (not_not_intro haboard)] at hb
  split at hb
  · rename_i hnone
    exact getSeatIteratorForPassenger_eq_none.mp hnone ⟨b, hold, hpass⟩
  rename_i seat hseat
  have hmem := mem_of_find?_eq_some hseat
  have hseatPass : seat.passenger = some unit := by simpa using find?_some hseat
  have hb' : b ∈ (s.setPassenger seat.id none).seats.rows := by
    split at hb <;> exact hb
  rcases mem_rows_setPassenger.mp hb' with ⟨-, hne⟩ | ⟨a, -, -, rfl⟩
  · exact hne (congrArg VehicleSeat.id (h.once b hold seat hmem unit hpass hseatPass))
  · exact absurd hpass (by simp)

theorem Orderly.exitVehicleNow (unit : ℕ) : Orderly x (s.exitVehicleNow unit) := by
  have hr := releases_exitVehicleNow s unit
  have hgone := h.not_seated_removePassenger unit
  have hrem := h.removePassenger unit
  unfold Vehicle.exitVehicleNow at hr ⊢
  split
  · exact h
  rename_i haboard
  rw [if_neg haboard] at hr
  refine h.of_releases hr hrem.counted fun u hu => ?_
  have hne : u ≠ unit := fun he => hgone (he ▸ hu)
  exact ⟨mem_filter.mpr ⟨(hrem.held u hu).1, by simpa using hne⟩, (hrem.held u hu).2.1⟩

theorem Orderly.not_seated_exitVehicleNow (unit : ℕ) : ¬(s.exitVehicleNow unit).Seated unit := by
  intro hu
  have haboard := (h.held unit ((releases_exitVehicleNow s unit).seated hu)).1
  unfold Vehicle.exitVehicleNow at hu
  rw [if_neg (not_not_intro haboard)] at hu
  exact h.not_seated_removePassenger unit hu

theorem Orderly.removePendingEvents (p : VehicleJoinEvent → Bool) :
    Orderly x (s.removePendingEvents p) :=
  h.of_releases (releases_removePendingEvents s p) h.counted fun u hu =>
    ⟨(h.held u hu).1, (h.held u hu).2.1⟩

theorem Orderly.unapplyControlVehicle (caster : ℕ) :
    Orderly x (s.unapplyControlVehicle caster) := by
  unfold Vehicle.unapplyControlVehicle
  split
  · exact h
  · exact (h.removePendingEvents _).exitVehicleNow caster

theorem Orderly.not_seated_unapplyControlVehicle (caster : ℕ) :
    ¬(s.unapplyControlVehicle caster).Seated caster := by
  unfold Vehicle.unapplyControlVehicle
  split
  · rename_i hme
    exact fun hu => (h.held caster hu).2.2 hme
  · exact (h.removePendingEvents _).not_seated_exitVehicleNow caster

end

/-! The handler of an aura that goes does not look at the auras. -/

theorem removePassenger_auras (s : Vehicle) (unit : ℕ) (l : List ℕ) :
    { s with auras := l }.removePassenger unit = { s.removePassenger unit with auras := l } := by
  unfold removePassenger
  by_cases haboard : unit ∈ s.aboard
  · rw [if_neg (not_not_intro haboard), if_neg (not_not_intro haboard)]
    have hseat : { s with auras := l }.getSeatIteratorForPassenger unit =
        s.getSeatIteratorForPassenger unit := rfl
    rw [hseat]
    cases s.getSeatIteratorForPassenger unit with
    | none => rfl
    | some seat =>
      dsimp only
      split <;> rfl
  · rw [if_pos haboard, if_pos haboard]

theorem exitVehicleNow_auras (s : Vehicle) (unit : ℕ) (l : List ℕ) :
    { s with auras := l }.exitVehicleNow unit = { s.exitVehicleNow unit with auras := l } := by
  unfold exitVehicleNow
  by_cases haboard : unit ∈ s.aboard
  · rw [if_neg (not_not_intro haboard), if_neg (not_not_intro haboard), removePassenger_auras]
  · rw [if_pos haboard, if_pos haboard]

theorem unapplyControlVehicle_auras (s : Vehicle) (caster : ℕ) (l : List ℕ) :
    { s with auras := l }.unapplyControlVehicle caster =
      { s.unapplyControlVehicle caster with auras := l } := by
  unfold unapplyControlVehicle
  by_cases hme : caster = s.me
  · rw [if_pos hme, if_pos hme]
  rw [if_neg hme, if_neg hme]
  exact exitVehicleNow_auras (s.removePendingEventsForPassenger caster) caster l

section

variable (h : Orderly x s)

include h

theorem Orderly.removeAura (caster : ℕ) : Orderly x (s.removeAura caster) := by
  unfold Vehicle.removeAura
  split
  · rw [unapplyControlVehicle_auras]
    have hun := h.unapplyControlVehicle caster
    have hgone := h.not_seated_unapplyControlVehicle caster
    have hr := releases_unapplyControlVehicle s caster
    refine h.of_releases { hr with } hun.counted fun u hu => ⟨(hun.held u hu).1, ?_⟩
    have hne : u ≠ caster := fun he => hgone (he ▸ hu)
    exact (mem_erase_of_ne hne).mpr (h.held u (hr.seated hu)).2.1
  · exact h

theorem Orderly.not_seated_removeAura (caster : ℕ) : ¬(s.removeAura caster).Seated caster := by
  unfold Vehicle.removeAura
  split
  · rw [unapplyControlVehicle_auras]
    exact h.not_seated_unapplyControlVehicle caster
  rename_i hnone
  exact fun hu => hnone (h.held caster hu).2.1

theorem Orderly.foldl_removeAura (l : List ℕ) : Orderly x (l.foldl Vehicle.removeAura s) ∧
      ∀ u ∈ l, ¬(l.foldl Vehicle.removeAura s).Seated u := by
  induction l generalizing s with
  | nil => exact ⟨h, fun u hu => absurd hu not_mem_nil⟩
  | cons c l ih =>
    obtain ⟨hkeep, hout⟩ := ih (h.removeAura c)
    refine ⟨hkeep, fun u hu hseat => ?_⟩
    rcases mem_cons.mp hu with rfl | hmem
    · exact h.not_seated_removeAura u ((releases_foldl releases_removeAura l _).seated hseat)
    · exact hout u hmem hseat

theorem Orderly.removeAurasByCaster (caster : ℕ) :
    Orderly x (s.removeAurasByCaster caster) ∧ ¬(s.removeAurasByCaster caster).Seated caster := by
  obtain ⟨hkeep, hout⟩ := h.foldl_removeAura (s.auras.filter (· = caster))
  refine ⟨hkeep, fun hseat => hout caster ?_ hseat⟩
  have hold := (releases_removeAurasByCaster s caster).seated hseat
  exact mem_filter.mpr ⟨(h.held caster hold).2.1, by simp⟩

theorem Orderly.exitVehicle (unit : ℕ) :
    Orderly x (s.exitVehicle unit) ∧ ¬(s.exitVehicle unit).Seated unit := by
  unfold Vehicle.exitVehicle
  split
  · rename_i haboard
    exact ⟨h, fun hu => haboard (h.held unit hu).1⟩
  · exact h.removeAurasByCaster unit

theorem Orderly.abortPendingEvents : Orderly x s.abortPendingEvents :=
  h.of_releases (releases_abortPendingEvents s) h.counted fun u hu =>
    ⟨(h.held u hu).1, (h.held u hu).2.1⟩

theorem Orderly.removeAllPassengers :
    Orderly x s.removeAllPassengers ∧ ∀ u, ¬s.removeAllPassengers.Seated u := by
  obtain ⟨hkeep, hout⟩ := h.abortPendingEvents.foldl_removeAura s.abortPendingEvents.auras
  refine ⟨hkeep, fun u hu => hout u ?_ hu⟩
  exact (h.held u ((releases_removeAllPassengers s).seated hu)).2.1

end

/-! ### Making and executing joins -/

theorem mem_of_chooseSeat {seatId : ℤ} (h : s.chooseSeat seatId = some seat) :
    seat ∈ s.seats.rows := by
  unfold chooseSeat at h
  split at h
  · exact mem_of_find?_eq_some h
  · exact mem_of_get? h

theorem Orderly.addEvent_none (h : Orderly none s) (unit : ℕ) :
    Orderly none (s.addEvent unit none) :=
  { h with
    waiting e he hlive := by
      rcases mem_append.mp he with hmem | hnew
      · exact h.waiting e hmem hlive
      rw [mem_singleton.mp hnew] at hlive
      exact absurd hlive (by simp) }

theorem Orderly.addEvent_some (h : Orderly none s) (unit : ℕ)
    (hseat : seat ∈ s.seats.rows) : Orderly seat.passenger (s.addEvent unit (some seat.id)) :=
  { h with
    waiting e he hlive := by
      rcases mem_append.mp he with hmem | hnew
      · obtain ⟨a, ha, hid, hpass⟩ := h.waiting e hmem hlive
        exact ⟨a, ha, hid, .inl (or_self_iff.mp hpass)⟩
      rw [mem_singleton.mp hnew]
      exact ⟨seat, hseat, rfl, .inr rfl⟩ }

theorem Orderly.addPassenger (h : Orderly none s) (unit : ℕ) (seatId : ℤ) :
    Orderly none (s.addPassenger unit seatId) := by
  unfold Vehicle.addPassenger
  split
  · exact h
  split
  · exact h.addEvent_none unit
  rename_i seat hchoose
  have hadd := h.addEvent_some unit (mem_of_chooseSeat hchoose)
  dsimp only
  split
  · rename_i hnone
    rw [hnone] at hadd
    exact hadd
  rename_i passenger hpass
  rw [hpass] at hadd
  obtain ⟨hexit, hgone⟩ := hadd.exitVehicle passenger
  exact hexit.done fun u hu => some.inj hu ▸ hgone

theorem addPassenger_releases (s : Vehicle) (unit : ℕ) (seatId : ℤ) :
    s.addPassenger unit seatId = s ∨ s.status ≠ .uninstalling ∧
      ∃ seat, Releases (s.addEvent unit seat) (s.addPassenger unit seatId) := by
  unfold addPassenger
  split
  · exact .inl rfl
  rename_i hstatus
  split
  · exact .inr ⟨hstatus, none, Releases.refl _⟩
  rename_i seat _
  refine .inr ⟨hstatus, some seat.id, ?_⟩
  dsimp only
  split
  · exact Releases.refl _
  · exact releases_exitVehicle _ _

theorem Listed.addEvent (h : s.Listed) (unit : ℕ) (seat : Option ℕ) :
    (s.addEvent unit seat).Listed := by
  intro e he hlive
  rcases mem_append.mp he with hmem | hnew
  · exact h e hmem hlive
  rw [mem_singleton.mp hnew] at hlive ⊢
  cases seat with
  | none => exact absurd hlive (by simp)
  | some i => rfl

theorem Inv.addPassenger (h : s.Inv) (unit : ℕ) (seatId : ℤ) :
    (s.addPassenger unit seatId).Inv := by
  refine ⟨h.orderly.addPassenger unit seatId, ?_, ?_⟩ <;>
    rcases addPassenger_releases s unit seatId with heq | ⟨-, seat, hr⟩
  · rw [heq]
    exact h.built
  · exact Built.of_releases (s := s.addEvent unit seat) h.built hr
  · rw [heq]
    exact h.listed
  · exact (h.listed.addEvent unit seat).of_marks hr.marks

theorem replaced_of_frees (h : Frees s s') :
    ∀ a ∈ s.seats.rows, ∀ b ∈ s'.seats.rows, a.id = b.id → ∀ u w,
      a.passenger = some u → b.passenger = some w → u = w := by
  intro a ha b hb hid u w hu hw
  have heq := s.seats.distinct.eq_of_key ha (h b hb w hw) hid
  exact some.inj (hu.symm.trans (heq ▸ hw))

variable {e : VehicleJoinEvent}

theorem Orderly.seat_of_live (h : Orderly none s) (he : e ∈ s.events) (hlive : e.toAbort = false) :
    ∃ seat ∈ s.seats.rows, e.seat = some seat.id ∧ e.seat.bind s.seats.get? = some seat ∧
      seat.passenger = none := by
  obtain ⟨seat, hseat, hid, hpass⟩ := h.waiting e he hlive
  refine ⟨seat, hseat, hid, ?_, or_self_iff.mp hpass⟩
  rw [hid]
  exact Table.get?_key hseat

theorem mem_rows_takeSeat {b : VehicleSeat} (hb : b ∈ (s.takeSeat e seat).seats.rows) :
    b ∈ s.seats.rows ∧ b.id ≠ seat.id ∨ b.id = seat.id ∧ b.passenger = some e.passenger := by
  rcases mem_rows_setPassenger.mp hb with hold | ⟨a, ha, hid, rfl⟩
  · exact .inl hold
  · exact .inr ⟨hid, rfl⟩

theorem Orderly.seated_takeSeat
    (hu : (s.takeSeat e seat).Seated u) : s.Seated u ∨ u = e.passenger := by
  obtain ⟨b, hb, hpass⟩ := hu
  rcases mem_rows_takeSeat hb with ⟨hold, -⟩ | ⟨-, hnew⟩
  · exact .inl ⟨b, hold, hpass⟩
  · exact .inr (some.inj (hpass.symm.trans hnew))

theorem Orderly.once_takeSeat (h : Orderly none s)
    (hfree : ¬s.Seated e.passenger) (unit : ℕ) (a b : VehicleSeat)
    (ha : a ∈ (s.takeSeat e seat).seats.rows) (hb : b ∈ (s.takeSeat e seat).seats.rows)
    (hua : a.passenger = some unit) (hub : b.passenger = some unit) : a = b := by
  have hnew : ∀ c ∈ s.seats.rows, c.passenger = some unit → unit ≠ e.passenger :=
    fun c hc hpass heq => hfree ⟨c, hc, heq ▸ hpass⟩
  rcases mem_rows_takeSeat ha with ⟨hola, -⟩ | ⟨hida, hpa⟩ <;>
    rcases mem_rows_takeSeat hb with ⟨holb, -⟩ | ⟨hidb, hpb⟩
  · exact h.once a hola b holb unit hua hub
  · exact absurd (some.inj (hub.symm.trans hpb)) (hnew a hola hua)
  · exact absurd (some.inj (hua.symm.trans hpa)) (hnew b holb hub)
  · exact (s.takeSeat e seat).seats.distinct.eq_of_key ha hb (hida.trans hidb.symm)

theorem Inv.waiting_takeSeat (h : s.Inv)
    (e' : VehicleJoinEvent) (he' : e' ∈ (s.takeSeat e seat).events) (hlive : e'.toAbort = false) :
    ∃ b ∈ (s.takeSeat e seat).seats.rows, e'.seat = some b.id ∧
      (b.passenger = none ∨ b.passenger = none) := by
  obtain ⟨e0, he0, rfl⟩ := mem_map.mp he'
  by_cases hseat : (e0.pending && decide (e0.seat = some seat.id)) = true
  · rw [if_pos hseat] at hlive
    exact absurd hlive (by simp)
  rw [if_neg hseat] at hlive ⊢
  obtain ⟨b, hb, hid, hpass⟩ := h.orderly.waiting e0 he0 hlive
  refine ⟨b, mem_rows_setPassenger.mpr (.inl ⟨hb, fun heq => hseat ?_⟩), hid, hpass⟩
  rw [h.listed e0 he0 hlive, hid, heq]
  simp

/-- **What executing a live join does**: the aura is missing, or the seat is taken and
counted.  The assertion on `UsableSeatNum` holds because the seat of the join is one of
those counted. -/
theorem Orderly.execute_eq (h : Orderly none s) (he : e ∈ s.events) (hlive : e.toAbort = false) :
    (e.passenger ∉ s.auras ∧ s.execute e = { s with failed := some .aura }) ∨
      ∃ seat ∈ s.seats.rows, ∃ n flag, e.passenger ∈ s.auras ∧ seat.passenger = none ∧
        s.execute e = { s.takeSeat e seat with usableSeatNum := n, npcFlag := flag } ∧
        (s.execute e).Counted := by
  obtain ⟨seat, hseat, -, hget, hnone⟩ := h.seat_of_live he hlive
  by_cases haura : e.passenger ∈ s.auras
  · right
    have hcount := countP_setPassenger (s := s) (x := some e.passenger) hseat
    have hold : s.usableSeatNum = s.seats.rows.countP VehicleSeat.usable := h.counted
    simp only [VehicleSeat.usable, hnone, isNone_some, isNone_none,
      Bool.false_and, Bool.true_and, Bool.false_eq_true, if_false, Nat.add_zero] at hcount
    by_cases hcan : seat.seatInfo.canEnterOrExit = true
    · rw [if_pos hcan] at hcount
      have hpos : ¬(s.takeSeat e seat).usableSeatNum = 0 := by
        show ¬s.usableSeatNum = 0
        rw [hold]
        omega
      have heq : s.execute e = { s.takeSeat e seat with
          usableSeatNum := s.usableSeatNum - 1
          npcFlag := s.npcFlag && decide (s.usableSeatNum - 1 ≠ 0) } := by
        unfold execute
        rw [if_neg (not_not_intro haura), hget]
        dsimp only
        rw [if_pos hcan, if_neg hpos]
        rfl
      refine ⟨seat, hseat, _, _, haura, hnone, heq, ?_⟩
      rw [heq]
      show s.usableSeatNum - 1 = (s.setPassenger seat.id _).seats.rows.countP VehicleSeat.usable
      rw [hold]
      exact (Nat.eq_sub_of_add_eq hcount).symm
    rw [if_neg hcan] at hcount
    have heq : s.execute e = s.takeSeat e seat := by
      unfold execute
      rw [if_neg (not_not_intro haura), hget]
      dsimp only
      rw [if_neg hcan]
    refine ⟨seat, hseat, _, _, haura, hnone, heq, ?_⟩
    rw [heq]
    exact hold.trans hcount.symm
  left
  refine ⟨haura, ?_⟩
  unfold execute
  rw [if_pos haura]

theorem Inv.orderly_execute (h : s.Inv) (he : e ∈ s.events)
    (hlive : e.toAbort = false) (hme : e.passenger ≠ s.me) (hfree : ¬s.Seated e.passenger) :
    Orderly none (s.execute e) := by
  rcases h.orderly.execute_eq he hlive with ⟨-, heq⟩ | ⟨seat, hseat, n, flag, haura, -, heq, hcount⟩
  · rw [heq]
    exact { h.orderly with sound := by simp }
  rw [heq] at hcount ⊢
  refine ⟨?_, fun a ha b hb unit => h.orderly.once_takeSeat hfree unit a b ha hb, hcount, ?_,
    h.waiting_takeSeat, h.orderly.sound⟩
  · have hlen := congrArg List.length (map_place_setPassenger
      { s.removePendingEventsForSeat seat.id with aboard := e.passenger :: s.aboard } seat.id
      (some e.passenger))
    rw [length_map, length_map] at hlen
    exact hlen.trans_le h.orderly.room
  intro u hu
  rcases Orderly.seated_takeSeat hu with hu | rfl
  · exact ⟨mem_cons_of_mem _ (h.orderly.held u hu).1, (h.orderly.held u hu).2⟩
  · exact ⟨mem_cons_self, haura, hme⟩

theorem execute_frame (s : Vehicle) (e : VehicleJoinEvent) :
    (s.execute e).vehicleInfo = s.vehicleInfo ∧ (s.execute e).nextEvent = s.nextEvent ∧
      (s.execute e).seats.rows.map place = s.seats.rows.map place ∧
      (s.execute e).status = s.status ∧ Marks s (s.execute e) := by
  have htake : ∀ seat, (s.takeSeat e seat).seats.rows.map place = s.seats.rows.map place :=
    fun seat => map_place_setPassenger _ seat.id _
  have hmarks (i : ℕ) : Marks s (s.removePendingEventsForSeat i) :=
    (releases_removePendingEvents s _).marks
  unfold execute
  split
  · exact ⟨rfl, rfl, rfl, rfl, fun _ he => .inl he⟩
  split
  · exact ⟨rfl, rfl, rfl, rfl, fun _ he => .inl he⟩
  rename_i seat _
  dsimp only
  split
  · split <;> exact ⟨rfl, rfl, htake seat, rfl, hmarks seat.id⟩
  · exact ⟨rfl, rfl, htake seat, rfl, hmarks seat.id⟩

theorem Built.execute (h : s.Built) (e : VehicleJoinEvent) : (s.execute e).Built := by
  obtain ⟨hinfo, -, hshape, -⟩ := execute_frame s e
  unfold Built
  rw [hinfo, countP_canEnterOrExit hshape]
  exact h

theorem Orderly.deleteEvent (h : Orderly x s) (id : ℕ) : Orderly x (s.deleteEvent id) :=
  h.of_releases (releases_deleteEvent s id) h.counted fun u hu =>
    ⟨(h.held u hu).1, (h.held u hu).2.1⟩

theorem Orderly.abort (h : Orderly x s) (e : VehicleJoinEvent) : Orderly x (s.abort e) := by
  unfold Vehicle.abort
  split
  · exact (h.removeAurasByCaster e.passenger).1
  · exact h

theorem Orderly.ejectPassenger (h : Orderly x s) (unit : ℕ) :
    Orderly x (s.ejectPassenger unit) := by
  unfold Vehicle.ejectPassenger
  split
  · exact h
  split
  · exact h
  · exact ((h.removePassenger unit).exitVehicle unit).1

theorem Inv.of_releases (h : s.Inv) (hr : Releases s s') (ho : Orderly none s') : s'.Inv :=
  ⟨ho, h.built.of_releases hr, h.listed.of_marks hr.marks⟩

/-! ### The other requests -/

theorem Inv.killEvent (h : s.Inv) (id : ℕ) : (s.killEvent id).Inv := by
  unfold Vehicle.killEvent
  split
  · exact h
  rename_i e _
  exact h.of_releases ((releases_abort s e).trans (releases_deleteEvent _ id))
    ((h.orderly.abort e).deleteEvent id)

theorem Inv.runEvent (h : s.Inv) (id : ℕ) (hreg : ∀ e ∈ s.event id, e.toAbort = false →
    e.passenger ≠ s.me ∧ s.getSeatIteratorForPassenger e.passenger = none) :
    (s.runEvent id).Inv := by
  unfold Vehicle.runEvent
  split
  · exact h
  rename_i e he
  by_cases habort : e.toAbort = true
  · rw [if_pos habort]
    exact h.of_releases ((releases_abort s e).trans (releases_deleteEvent _ id))
      ((h.orderly.abort e).deleteEvent id)
  rw [if_neg habort]
  have hlive : e.toAbort = false := by simpa using habort
  obtain ⟨hme, hnone⟩ := hreg e he hlive
  have hexec : (s.execute e).Inv :=
    ⟨h.orderly_execute (mem_of_find?_eq_some he) hlive hme
      (getSeatIteratorForPassenger_eq_none.mp hnone), h.built.execute e,
      h.listed.of_marks (execute_frame s e).2.2.2.2⟩
  exact hexec.of_releases (releases_deleteEvent _ id) (hexec.orderly.deleteEvent id)

theorem Listed.toAbort_abortPendingEvents (h : s.Listed)
    (he : e ∈ s.abortPendingEvents.events) : e.toAbort = true := by
  obtain ⟨e0, he0, rfl⟩ := mem_map.mp he
  by_cases hp : e0.pending = true
  · rw [if_pos hp]
  rw [if_neg hp]
  cases hlive : e0.toAbort with
  | true => rfl
  | false => exact absurd (h e0 he0 hlive) hp

theorem Listed.toAbort_removeAllPassengers (h : s.Listed)
    (he : e ∈ s.removeAllPassengers.events) : e.toAbort = true := by
  have hr : Releases s.abortPendingEvents s.removeAllPassengers :=
    releases_foldl releases_removeAura _ _
  rcases hr.marks e he with hmem | ⟨htrue, -⟩
  · exact h.toAbort_abortPendingEvents hmem
  · exact htrue

theorem Inv.uninstall (h : s.Inv) : s.uninstall.Inv := by
  unfold Vehicle.uninstall
  split
  · exact h
  have h' : Inv { s with status := .uninstalling } :=
    ⟨{ h.orderly with }, h.built, h.listed⟩
  exact h'.of_releases (releases_removeAllPassengers _) h'.orderly.removeAllPassengers.1

theorem passenger_seats_rows (ve : VehicleEntry) : ∀ seat ∈ ve.seats.rows, seat.passenger = none := by
  intro seat hseat
  obtain ⟨i, -, hi⟩ := mem_filterMap.mp hseat
  obtain ⟨info, -, rfl⟩ := map_eq_some_iff.mp hi
  rfl

theorem length_seats_rows (ve : VehicleEntry) : ve.seats.rows.length ≤ maxVehicleSeats := by
  have h := length_filterMap_le ve.seatAt (finRange maxVehicleSeats)
  rw [length_finRange] at h
  exact h

theorem countP_usable_of_empty {l : List VehicleSeat} (h : ∀ seat ∈ l, seat.passenger = none) :
    l.countP VehicleSeat.usable = l.countP fun seat => seat.seatInfo.canEnterOrExit :=
  countP_congr fun seat hseat => by simp [VehicleSeat.usable, h seat hseat]

theorem Orderly.usableSeatNum_of_empty (h : Orderly x s) (hempty : ∀ u, ¬s.Seated u) :
    s.usableSeatNum = s.seats.rows.countP fun seat => seat.seatInfo.canEnterOrExit := by
  have hnone : ∀ seat ∈ s.seats.rows, seat.passenger = none := fun seat hseat =>
    eq_none_iff_forall_ne_some.mpr fun u hu => hempty u ⟨seat, hseat, hu⟩
  exact Eq.trans h.counted (countP_usable_of_empty hnone)

variable {store : ℕ → Option VehicleEntry} {id : ℕ}

/-- **A new entry keeps the order** when it has as many usable seats as the old one: all
passengers are off, so the count is that of the old entry. -/
theorem Inv.setVehicleId (h : s.Inv)
    (hreg : ∀ ve ∈ store id, ve.usableSeats = s.vehicleInfo.usableSeats) :
    (s.setVehicleId store id).Inv := by
  unfold Vehicle.setVehicleId
  split
  · exact h
  split
  · exact h
  rename_i ve hve
  have ho : Orderly none { s with vehicleInfo := ve } :=
    { h.orderly with }
  obtain ⟨hoff, hempty⟩ := ho.removeAllPassengers
  have hr := releases_removeAllPassengers { s with vehicleInfo := ve }
  have hcount : ({ s with vehicleInfo := ve }.removeAllPassengers).usableSeatNum =
      ve.usableSeats := by
    rw [hoff.usableSeatNum_of_empty hempty, countP_canEnterOrExit hr.shape]
    exact h.built.trans (hreg ve hve).symm
  refine ⟨⟨length_seats_rows ve, ?_, hcount, ?_, ?_, hoff.sound⟩, ?_, ?_⟩
  · intro a ha b _ unit hua
    exact absurd hua (by simp [passenger_seats_rows ve a ha])
  · rintro u ⟨seat, hseat, hu⟩
    exact absurd hu (by simp [passenger_seats_rows ve seat hseat])
  · intro e he hlive
    have htrue := Listed.toAbort_removeAllPassengers (s := { s with vehicleInfo := ve }) h.listed he
    exact absurd (htrue.symm.trans hlive) (by decide)
  · show ve.seats.rows.countP _ = ({ s with vehicleInfo := ve }.removeAllPassengers
      ).vehicleInfo.usableSeats
    rw [hr.vehicleInfo]
    exact (countP_usable_of_empty (passenger_seats_rows ve)).symm
  exact fun e he hlive => absurd
    ((Listed.toAbort_removeAllPassengers (s := { s with vehicleInfo := ve }) h.listed
      he).symm.trans hlive) (by decide)

/-- **What a request does to seats and joins**: seats are emptied and joins go or are
marked, a join is made, or a live one is executed. -/
inductive Served (s s' : Vehicle) : Prop
  | frees (hnext : s'.nextEvent = s.nextEvent) (hfrees : Frees s s') (hmarks : Marks s s')
    (hoff : s'.status = .uninstalling → s.status = .uninstalling ∨
      (s.Listed → ∀ e ∈ s'.events, e.toAbort = true))
  | joins (hstatus : s.status ≠ .uninstalling) (unit : ℕ) (seat : Option ℕ)
    (hr : Releases (s.addEvent unit seat) s')
  | executes (e : VehicleJoinEvent) (id : ℕ) (he : e ∈ s.events) (hlive : e.toAbort = false)
    (heq : s' = (s.execute e).deleteEvent id)

theorem Releases.served (h : Releases s s') : Served s s' :=
  .frees h.nextEvent h.frees h.marks fun hs => .inl (h.status ▸ hs)

theorem served (store : ℕ → Option VehicleEntry) (s : Vehicle) (r : Request) :
    Served s (s.serve store r) := by
  have hsame := (Releases.refl s).served
  unfold serve
  cases r with
  | install => exact .frees rfl (fun _ hb _ _ => hb) (fun _ he => .inl he) nofun
  | applyAura caster => exact .frees rfl (fun _ hb _ _ => hb) (fun _ he => .inl he) .inl
  | removeAura caster => exact (releases_removeAura s caster).served
  | addPassenger unit seatId =>
    rcases addPassenger_releases s unit seatId with heq | ⟨hstatus, seat, hr⟩
    · dsimp only
      rw [heq]
      exact hsame
    · exact .joins hstatus unit seat hr
  | exitVehicle unit => exact (releases_exitVehicle s unit).served
  | ejectPassenger unit => exact (releases_ejectPassenger s unit).served
  | removePassenger unit => exact (releases_removePassenger s unit).served
  | removeAllPassengers => exact (releases_removeAllPassengers s).served
  | setVehicleId id =>
    dsimp only [setVehicleId]
    split
    · exact hsame
    split
    · exact hsame
    rename_i ve _
    have hr := releases_removeAllPassengers { s with vehicleInfo := ve }
    refine .frees hr.nextEvent (fun b hb u hu => ?_) hr.marks fun hs => .inl (hr.status ▸ hs)
    exact absurd hu (by simp [passenger_seats_rows ve b hb])
  | uninstall =>
    dsimp only [uninstall]
    split
    · exact hsame
    have hr := releases_removeAllPassengers { s with status := .uninstalling }
    exact .frees hr.nextEvent hr.frees hr.marks fun _ => .inr fun hl _ he =>
      Listed.toAbort_removeAllPassengers (s := { s with status := .uninstalling }) hl he
  | runEvent id =>
    dsimp only [runEvent]
    split
    · exact hsame
    rename_i e he
    cases hlive : e.toAbort with
    | true => exact ((releases_abort s e).trans (releases_deleteEvent _ id)).served
    | false => exact .executes e id (mem_of_find?_eq_some he) hlive rfl
  | killEvent id =>
    dsimp only [killEvent]
    split
    · exact hsame
    · exact ((releases_abort s _).trans (releases_deleteEvent _ id)).served

/-! ### A run -/

theorem inv_newVehicle (me : ℕ) (minion : Bool) (vehInfo : VehicleEntry) :
    (newVehicle me minion vehInfo).Inv where
  orderly :=
    { room := length_seats_rows vehInfo, once := fun a ha b _ unit hua =>
        absurd hua (by simp [passenger_seats_rows vehInfo a ha])
      counted := rfl
      held := fun u ⟨seat, hseat, hu⟩ =>
        absurd hu (by simp [passenger_seats_rows vehInfo seat hseat])
      waiting := fun _ he => absurd he not_mem_nil
      sound := ⟨by simp [newVehicle], by simp [newVehicle]⟩ }
  built := (countP_usable_of_empty (passenger_seats_rows vehInfo)).symm
  listed := fun _ he => absurd he not_mem_nil

variable {r : Request}

/-- **Each request**, by its kind. -/
theorem Inv.serve (h : s.Inv) (hreg : s.Regular store r) : (s.serve store r).Inv := by
  cases r with
  | install =>
    exact ⟨{ h.orderly with }, h.built, h.listed⟩
  | applyAura caster =>
    exact ⟨⟨h.orderly.room, h.orderly.once, h.orderly.counted, fun u hu =>
      ⟨(h.orderly.held u hu).1, mem_cons_of_mem _ (h.orderly.held u hu).2.1,
        (h.orderly.held u hu).2.2⟩, h.orderly.waiting, h.orderly.sound⟩, h.built, h.listed⟩
  | removeAura caster =>
    exact h.of_releases (releases_removeAura s caster) (h.orderly.removeAura caster)
  | addPassenger unit seatId => exact h.addPassenger unit seatId
  | exitVehicle unit =>
    exact h.of_releases (releases_exitVehicle s unit) (h.orderly.exitVehicle unit).1
  | ejectPassenger unit =>
    exact h.of_releases (releases_ejectPassenger s unit) (h.orderly.ejectPassenger unit)
  | removePassenger unit =>
    exact h.of_releases (releases_removePassenger s unit) (h.orderly.removePassenger unit)
  | removeAllPassengers =>
    exact h.of_releases (releases_removeAllPassengers s) h.orderly.removeAllPassengers.1
  | setVehicleId id => exact h.setVehicleId hreg
  | uninstall => exact h.uninstall
  | runEvent id => exact h.runEvent id hreg
  | killEvent id => exact h.killEvent id

/-- **Every regular request** keeps the seats. -/
theorem Inv.step (h : s.Inv) (hreg : s.Regular store r) : (s.step store r).Inv := by
  unfold Vehicle.step
  split
  · exact h
  · exact h.serve hreg

/-- Only a join that is executed puts somebody on a seat, and its seat was empty. -/
theorem Inv.replaced (h : s.Inv) (hserved : Served s s') :
    ∀ a ∈ s.seats.rows, ∀ b ∈ s'.seats.rows, a.id = b.id → ∀ u w,
      a.passenger = some u → b.passenger = some w → u = w := by
  cases hserved with
  | frees _ hfrees _ _ => exact replaced_of_frees hfrees
  | joins _ _ _ hr => exact replaced_of_frees hr.frees
  | executes e id he hlive hs' =>
    rw [hs']
    rcases h.orderly.execute_eq he hlive with ⟨-, heq⟩ | ⟨seat, hseat, n, flag, -, hnone, heq, -⟩
    · rw [heq]
      exact replaced_of_frees fun b hb _ _ => hb
    rw [heq]
    intro a ha b hb hid u w hu hw
    rcases mem_rows_takeSeat hb with ⟨hold, -⟩ | ⟨hbid, -⟩
    · have hab := s.seats.distinct.eq_of_key ha hold hid
      exact some.inj (hu.symm.trans (hab ▸ hw))
    have hab := s.seats.distinct.eq_of_key ha hseat (hid.trans hbid)
    rw [hab, hnone] at hu
    exact absurd hu (by simp)

theorem Inv.seatsKept (h : s.Inv) (hreg : s.Regular store r) : SeatsKept s (s.step store r) where
  once := (h.step hreg).orderly.seatedOnce
  replaced := by
    unfold Vehicle.step
    split
    · exact replaced_of_frees fun b hb _ _ => hb
    · exact h.replaced (served store s r)
  counted := (h.step hreg).orderly.counted
  asserted := (h.step hreg).orderly.sound.1

/-! ### Joins that are off -/

/-- What a request does to the joins: they go or are marked, and new ones have new
numbers. -/
structure Ages (s s' : Vehicle) : Prop where
  next : s.nextEvent ≤ s'.nextEvent
  joins : ∀ e' ∈ s'.events, s.nextEvent ≤ e'.id ∨ e' ∈ s.events ∨
    e'.toAbort = true ∧ ∃ e ∈ s.events, e.id = e'.id

theorem Ages.aborted (h : Ages s s') (ha : s.Aborted id) : s'.Aborted id := by
  refine ⟨ha.1.trans_le h.next, fun e' he' hid => ?_⟩
  rcases h.joins e' he' with hnew | hmem | ⟨htrue, -⟩
  · exact absurd ha.1 (not_lt.mpr (hid ▸ hnew))
  · exact ha.2 e' hmem hid
  · exact htrue

theorem Ages.of_releases_addEvent {unit : ℕ} {seat : Option ℕ}
    (hr : Releases (s.addEvent unit seat) s') : Ages s s' where
  next := by
    rw [hr.nextEvent]
    exact Nat.le_succ s.nextEvent
  joins e' he' := by
    rcases hr.marks e' he' with hmem | ⟨htrue, e, he, hid⟩
    · rcases mem_append.mp hmem with hold | hnew
      · exact .inr (.inl hold)
      rw [mem_singleton.mp hnew]
      exact .inl le_rfl
    rcases mem_append.mp he with hold | hnew
    · exact .inr (.inr ⟨htrue, e, hold, hid⟩)
    rw [mem_singleton.mp hnew] at hid
    exact .inl hid.le

theorem Served.ages (h : Served s s') : Ages s s' := by
  cases h with
  | frees hnext _ hmarks _ => exact ⟨hnext.ge, fun e' he' => .inr (hmarks e' he')⟩
  | joins _ _ _ hr => exact .of_releases_addEvent hr
  | executes e id _ _ heq =>
    obtain ⟨-, hnext, -, -, hmarks⟩ := execute_frame s e
    rw [heq]
    exact ⟨hnext.ge, fun e' he' => .inr (hmarks e' (mem_filter.mp he').1)⟩

theorem ages_step (store : ℕ → Option VehicleEntry) (s : Vehicle) (r : Request) :
    Ages s (s.step store r) := by
  unfold step
  split
  · exact (Releases.refl s).served.ages
  · exact (served store s r).ages

theorem Aborted.not_boards (h : s.Aborted id) (r : Request) : s.boards r ≠ some id := by
  unfold boards
  split
  · rename_i id'
    split
    · simp
    intro hboards
    obtain ⟨e, he, hlive⟩ := bind_eq_some_iff.mp hboards
    split at hlive
    · exact absurd hlive (by simp)
    rename_i hfalse
    exact hfalse (h.2 e (mem_of_find?_eq_some he) (some.inj hlive))
  · simp

/-- **A join that is off stays off**, in every run from every state. -/
theorem Aborted.neverBoards (h : s.Aborted id) (store : ℕ → Option VehicleEntry)
    (rs : List Request) : NeverBoards store s id rs := by
  induction rs generalizing s with
  | nil => trivial
  | cons r rs ih => exact ⟨h.not_boards r, ih ((ages_step store s r).aborted h)⟩

theorem neverBoards_of_failed (h : s.failed.isSome) (store : ℕ → Option VehicleEntry) (id : ℕ)
    (rs : List Request) : NeverBoards store s id rs := by
  induction rs with
  | nil => trivial
  | cons r rs ih =>
    refine ⟨?_, ?_⟩
    · show s.boards r ≠ some id
      unfold boards
      split
      · simp [h]
      · simp
    rw [step, if_pos h]
    exact ih

/-- The live joins are on the list, and there are none once the vehicle is being
uninstalled. -/
structure Joins (s : Vehicle) : Prop where
  listed : s.Listed
  off : s.status = .uninstalling → ∀ e ∈ s.events, e.toAbort = true

theorem Joins.of_marks (h : s.Joins) (hmarks : Marks s s')
    (hoff : s'.status = .uninstalling → s.status = .uninstalling ∨
      (s.Listed → ∀ e ∈ s'.events, e.toAbort = true)) : s'.Joins where
  listed := h.listed.of_marks hmarks
  off hs e he := by
    rcases hoff hs with hstatus | hall
    · exact (hmarks e he).elim (h.off hstatus e) And.left
    · exact hall h.listed e he

theorem Joins.served (h : s.Joins) (hserved : Served s s') : s'.Joins := by
  cases hserved with
  | frees _ _ hmarks hoff => exact h.of_marks hmarks hoff
  | joins hstatus unit seat hr =>
    exact ⟨(h.listed.addEvent unit seat).of_marks hr.marks, fun hnow =>
      absurd (hr.status ▸ hnow) hstatus⟩
  | executes e id _ _ heq =>
    obtain ⟨-, -, -, hstatus, hmarks⟩ := execute_frame s e
    rw [heq]
    exact h.of_marks (fun e' he' => hmarks e' (mem_filter.mp he').1) fun hs =>
      .inl (hstatus.symm.trans hs)

theorem Joins.foldl_step (h : s.Joins) (store : ℕ → Option VehicleEntry) (rs : List Request) :
    (rs.foldl (step store) s).Joins := by
  induction rs generalizing s with
  | nil => exact h
  | cons r rs ih =>
    refine ih ?_
    unfold step
    split
    · exact h
    · exact h.served (Vehicle.served store s r)

/-- **A vehicle that is uninstalled has no join left.** -/
theorem Joins.neverBoards_uninstall (h : s.Joins) (store : ℕ → Option VehicleEntry)
    (hid : id < s.nextEvent) (rs : List Request) :
    NeverBoards store (s.step store .uninstall) id rs := by
  by_cases hfailed : s.failed.isSome
  · rw [step, if_pos hfailed]
    exact neverBoards_of_failed hfailed store id rs
  rw [step, if_neg hfailed]
  refine Aborted.neverBoards ⟨hid.trans_le (Vehicle.served store s .uninstall).ages.next, ?_⟩ store rs
  intro e he _
  have hj := h.served (Vehicle.served store s .uninstall)
  refine hj.off ?_ e he
  show s.uninstall.status = .uninstalling
  unfold uninstall
  split
  · rename_i hstatus
    exact hstatus.1
  · exact (releases_removeAllPassengers { s with status := .uninstalling }).status

/-- **The seats of a vehicle.**  In every run in which joins are executed for units without
a seat and a new entry has as many usable seats as the old one, every step leaves each unit
one seat at most, takes a seat from nobody, counts the empty seats that can be entered and
passes the assertion on them; and a join that is aborted, or made before the vehicle is
uninstalled, never boards afterwards. -/
theorem seats_of_regular (store : ℕ → Option VehicleEntry) (me : ℕ) (minion : Bool)
    (vehInfo : VehicleEntry) (rs : List Request)
    (h : Along (step store) (Regular store) (newVehicle me minion vehInfo) rs) :
    Along (step store) (fun s r => SeatsKept s (s.step store r)) (newVehicle me minion vehInfo) rs ∧
      ∀ before after id, rs = before ++ after →
        let s := before.foldl (step store) (newVehicle me minion vehInfo)
        (s.Aborted id → NeverBoards store s id after) ∧
          ∀ rest, after = .uninstall :: rest → id < s.nextEvent →
            NeverBoards store (s.step store .uninstall) id rest := by
  refine ⟨Along.of_invariant (I := Inv) (fun _ _ hI hr => hI.step hr)
    (fun _ _ hI hr => hI.seatsKept hr) (inv_newVehicle me minion vehInfo) h, ?_⟩
  intro before after id _
  have hnew : (newVehicle me minion vehInfo).Joins :=
    ⟨fun _ he => absurd he not_mem_nil, fun _ _ he => absurd he not_mem_nil⟩
  exact ⟨fun haborted => haborted.neverBoards store after, fun rest _ hid =>
    (hnew.foldl_step store before).neverBoards_uninstall store hid rest⟩

def twoSeats : VehicleEntry := ⟨1, fun i => if i.val < 2 then some ⟨true, false⟩ else none⟩

def threeSeats : VehicleEntry := ⟨2, fun i => if i.val < 3 then some ⟨true, false⟩ else none⟩

def someEntries (id : ℕ) : Option VehicleEntry :=
  if id = 1 then some twoSeats else if id = 2 then some threeSeats else none

/-- Two units ask for one seat; one of them boards, is sent off by the other, and the
vehicle goes with a join under way. -/
def someRequests : List Request :=
  [.install, .applyAura 7, .addPassenger 7 (-1), .applyAura 8, .addPassenger 8 0, .runEvent 0,
    .runEvent 1, .applyAura 8, .addPassenger 8 0, .runEvent 2, .setVehicleId 1,
    .removePassenger 8, .applyAura 9, .addPassenger 9 1, .uninstall, .runEvent 3]

theorem seats_of_regular_some :
    Along (step someEntries) (Regular someEntries) (newVehicle 100 false twoSeats) someRequests ∧
      Along (step someEntries) (fun s r => SeatsKept s (s.step someEntries r))
        (newVehicle 100 false twoSeats) someRequests :=
  have h : Along (step someEntries) (Regular someEntries) (newVehicle 100 false twoSeats)
      someRequests := by decide +kernel
  ⟨h, (seats_of_regular someEntries 100 false twoSeats someRequests h).1⟩

/-- A unit that asks for two seats in turn, before either join is executed, takes both. -/
def twoJoins : List Request :=
  [.install, .applyAura 7, .addPassenger 7 0, .applyAura 7, .addPassenger 7 1, .runEvent 0,
    .runEvent 1]

/-- It leaves one of the two when it goes; the next unit is put on the seat all the same. -/
def leftBehind : List Request :=
  twoJoins ++ [.exitVehicle 7, .applyAura 8, .addPassenger 8 1]

/-- A vehicle that gets a third seat, and fills all three. -/
def thirdSeat : List Request :=
  [.install, .setVehicleId 2, .applyAura 7, .addPassenger 7 0, .runEvent 0, .applyAura 8,
    .addPassenger 8 1, .runEvent 1, .applyAura 9, .addPassenger 9 2, .runEvent 2]

/-- **Two seats for one unit, a seat taken from its passenger and a wrong count.** -/
theorem seats_confused :
    (¬(twoJoins.foldl (step someEntries) (newVehicle 100 false twoSeats)).SeatedOnce) ∧
      (¬∀ a ∈ (leftBehind.foldl (step someEntries) (newVehicle 100 false twoSeats)).seats.rows,
        ∀ b ∈ ((leftBehind ++ [Request.runEvent 2]).foldl (step someEntries)
          (newVehicle 100 false twoSeats)).seats.rows, a.id = b.id → ∀ u w,
          a.passenger = some u → b.passenger = some w → u = w) ∧
      (¬((thirdSeat.take 2).foldl (step someEntries) (newVehicle 100 false twoSeats)).Counted) ∧
      (thirdSeat.foldl (step someEntries) (newVehicle 100 false twoSeats)).failed =
        some .usableSeatNum := by
  refine ⟨fun h => ?_, fun h => ?_, by decide +kernel, by decide +kernel⟩
  · have hseats : (twoJoins.foldl (step someEntries) (newVehicle 100 false twoSeats)).seats.rows =
        [⟨0, ⟨true, false⟩, some 7⟩, ⟨1, ⟨true, false⟩, some 7⟩] := by decide +kernel
    have hid := h ⟨0, ⟨true, false⟩, some 7⟩ (by simp [hseats]) ⟨1, ⟨true, false⟩, some 7⟩
      (by simp [hseats]) 7 rfl rfl
    exact absurd hid (by decide)
  have hbefore : (leftBehind.foldl (step someEntries) (newVehicle 100 false twoSeats)).seats.rows =
      [⟨0, ⟨true, false⟩, none⟩, ⟨1, ⟨true, false⟩, some 7⟩] := by decide +kernel
  have hafter : ((leftBehind ++ [Request.runEvent 2]).foldl (step someEntries)
      (newVehicle 100 false twoSeats)).seats.rows =
      [⟨0, ⟨true, false⟩, none⟩, ⟨1, ⟨true, false⟩, some 8⟩] := by decide +kernel
  have hunit := h ⟨1, ⟨true, false⟩, some 7⟩ (by simp [hbefore]) ⟨1, ⟨true, false⟩, some 8⟩
    (by rw [hafter]; simp) rfl 7 8 rfl rfl
  exact absurd hunit (by decide)

end ZerosCore.Vehicles.Vehicle
