/-
# A vehicle and the joins under way

`Vehicle` of `src/server/game/Entities/Vehicle/Vehicle.cpp`, with what a unit does to board
and to leave it (`Unit::ExitVehicle`, `Unit::_ExitVehicle` of
`Entities/Unit/Unit.cpp`, `AuraEffect::HandleAuraControlVehicle` of
`Spells/Auras/SpellAuraEffects.cpp`).

Boarding takes two steps.  `AddPassenger` picks the seat and schedules a
`VehicleJoinEvent` in the event queue of the unit; the unit takes the seat when its queue
reaches the event.  Whoever sits on the vehicle holds an aura
`SPELL_AURA_CONTROL_VEHICLE` on it, and loses the seat with the aura.

Units are in the world as long as they are concerned with the vehicle, so the look-ups of
a passenger or of the caster of an aura succeed; what scripts do in their hooks, spells,
positions and packets are left out.  A failed `ASSERT` ends the server, and nothing happens
after it.
-/

import Mathlib.Data.List.FinRange
import ZerosCore.Lib.Keyed

namespace ZerosCore.Vehicles

open Lib Lib.Keyed

/-- The number of seats an entry of the vehicle store has room for. -/
def maxVehicleSeats : ℕ := 8

/-- The flags of a seat entry that decide who may take it. -/
structure VehicleSeatEntry where
  canEnterOrExit : Bool
  isUsableByOverride : Bool
deriving DecidableEq

/-- An entry of the vehicle store: the seat entry at each index, if `m_seatID` names one
that exists. -/
structure VehicleEntry where
  id : ℕ
  seatID : Fin maxVehicleSeats → Option VehicleSeatEntry

/-- A seat; the passenger is the guid of a unit. -/
structure VehicleSeat where
  id : ℕ
  seatInfo : VehicleSeatEntry
  passenger : Option ℕ
deriving DecidableEq

/-- A seat one may take without being told which. -/
def VehicleSeat.free (seat : VehicleSeat) : Bool :=
  seat.passenger.isNone && (seat.seatInfo.canEnterOrExit || seat.seatInfo.isUsableByOverride)

/-- An empty seat that can be entered or exited. -/
def VehicleSeat.usable (seat : VehicleSeat) : Bool :=
  seat.passenger.isNone && seat.seatInfo.canEnterOrExit

def VehicleEntry.seatAt (ve : VehicleEntry) (i : Fin maxVehicleSeats) : Option VehicleSeat :=
  (ve.seatID i).map fun info => ⟨i, info, none⟩

theorem VehicleEntry.distinct_seats (ve : VehicleEntry) :
    Distinct VehicleSeat.id ((List.finRange maxVehicleSeats).filterMap ve.seatAt) := by
  have hkey : ∀ l : List (Fin maxVehicleSeats),
      ((l.filterMap ve.seatAt).map VehicleSeat.id).Sublist (l.map Fin.val) := by
    intro l
    induction l with
    | nil => exact List.Sublist.slnil
    | cons i l ih =>
      rw [List.filterMap_cons, List.map_cons]
      cases h : ve.seatID i with
      | none => simpa [VehicleEntry.seatAt, h] using ih.cons i.val
      | some info => simpa [VehicleEntry.seatAt, h] using ih.cons_cons i.val
  exact (hkey _).nodup ((List.nodup_finRange _).map Fin.val_injective)

def VehicleEntry.seats (ve : VehicleEntry) : Table VehicleSeat.id :=
  ⟨(List.finRange maxVehicleSeats).filterMap ve.seatAt, ve.distinct_seats⟩

/-- The number of seats of an entry that can be entered or exited. -/
def VehicleEntry.usableSeats (ve : VehicleEntry) : ℕ := ve.seats.rows.countP VehicleSeat.usable

inductive Status where
  | none
  | installed
  | uninstalling
deriving DecidableEq

/-- The assertions that a request can fail. -/
inductive Assertion where
  /-- `HasAuraTypeWithCaster` in `VehicleJoinEvent::Execute`. -/
  | aura
  /-- `UsableSeatNum` in `VehicleJoinEvent::Execute`. -/
  | usableSeatNum
  /-- `Seat` is no seat of the vehicle: not an assertion, but nothing defined follows. -/
  | seat
deriving DecidableEq

/-- A `VehicleJoinEvent` in the event queue of its passenger.  `seat` is `none` for
`Seats.end()`, `target` says that `Target` is the vehicle and not null, and `pending` that
the event stands in `_pendingJoinEvents`. -/
structure VehicleJoinEvent where
  id : ℕ
  passenger : ℕ
  seat : Option ℕ
  toAbort : Bool
  target : Bool
  pending : Bool

/-- A vehicle and the units' side of it.  `me` is the guid of the base and `minion` its
type mask; `auras` are the casters of the control auras on the base, `aboard` the units
whose `m_vehicle` is this vehicle, and `events` the joins in the queues of the units,
numbered as they are made.  `npcFlag` is the flag that lets players click on a seat. -/
structure Vehicle where
  me : ℕ
  minion : Bool
  status : Status
  vehicleInfo : VehicleEntry
  seats : Table VehicleSeat.id
  usableSeatNum : ℕ
  npcFlag : Bool
  auras : List ℕ
  aboard : List ℕ
  events : List VehicleJoinEvent
  nextEvent : ℕ
  failed : Option Assertion

/-- `Vehicle::Vehicle`: every seat is empty and the usable ones are counted. -/
def newVehicle (me : ℕ) (minion : Bool) (vehInfo : VehicleEntry) : Vehicle where
  me := me
  minion := minion
  status := .none
  vehicleInfo := vehInfo
  seats := vehInfo.seats
  usableSeatNum := vehInfo.usableSeats
  npcFlag := decide (vehInfo.usableSeats ≠ 0)
  auras := []
  aboard := []
  events := []
  nextEvent := 0
  failed := none

namespace Vehicle

/-- `Vehicle::GetSeatIteratorForPassenger`: the first seat the unit sits on. -/
def getSeatIteratorForPassenger (s : Vehicle) (unit : ℕ) : Option VehicleSeat :=
  s.seats.rows.find? fun seat => seat.passenger = some unit

def setPassenger (s : Vehicle) (seatId : ℕ) (passenger : Option ℕ) : Vehicle :=
  { s with seats := s.seats.modify seatId (fun seat => { seat with passenger }) fun _ => rfl }

/-- Marks the pending joins that meet `p` as aborted and takes them off the list. -/
def removePendingEvents (s : Vehicle) (p : VehicleJoinEvent → Bool) : Vehicle :=
  { s with events := s.events.map fun e =>
      if e.pending && p e then { e with toAbort := true, pending := false } else e }

def removePendingEventsForSeat (s : Vehicle) (seatId : ℕ) : Vehicle :=
  s.removePendingEvents fun e => e.seat = some seatId

def removePendingEventsForPassenger (s : Vehicle) (passenger : ℕ) : Vehicle :=
  s.removePendingEvents fun e => e.passenger = passenger

def removePassenger (s : Vehicle) (unit : ℕ) : Vehicle :=
  if unit ∉ s.aboard then s
  else
    match s.getSeatIteratorForPassenger unit with
    | none => s
    | some seat =>
      let s := s.setPassenger seat.id none
      if seat.seatInfo.canEnterOrExit then
        let usableSeatNum := (s.usableSeatNum + 1) % 2 ^ 32
        { s with usableSeatNum, npcFlag := s.npcFlag || decide (usableSeatNum ≠ 0) }
      else s

/-- `Unit::_ExitVehicle`, as far as it concerns this vehicle. -/
def exitVehicleNow (s : Vehicle) (unit : ℕ) : Vehicle :=
  if unit ∉ s.aboard then s
  else
    let s := s.removePassenger unit
    { s with aboard := s.aboard.filter (· ≠ unit) }

/-- `AuraEffect::HandleAuraControlVehicle` when a control aura goes. -/
def unapplyControlVehicle (s : Vehicle) (caster : ℕ) : Vehicle :=
  if caster = s.me then s
  else (s.removePendingEventsForPassenger caster).exitVehicleNow caster

/-- One control aura of a caster is removed from the base. -/
def removeAura (s : Vehicle) (caster : ℕ) : Vehicle :=
  if caster ∈ s.auras then { s with auras := s.auras.erase caster }.unapplyControlVehicle caster
  else s

/-- `RemoveAurasByType(SPELL_AURA_CONTROL_VEHICLE, caster)`. -/
def removeAurasByCaster (s : Vehicle) (caster : ℕ) : Vehicle :=
  (s.auras.filter (· = caster)).foldl removeAura s

/-- `RemoveAurasByType(SPELL_AURA_CONTROL_VEHICLE)`. -/
def removeAurasByType (s : Vehicle) : Vehicle := s.auras.foldl removeAura s

def exitVehicle (s : Vehicle) (unit : ℕ) : Vehicle :=
  if unit ∉ s.aboard then s else s.removeAurasByCaster unit

/-- Empties `_pendingJoinEvents`: the joins on it are marked as aborted, and lose their
`Target` if the vehicle is about to go. -/
def abortPendingEvents (s : Vehicle) : Vehicle :=
  let target := decide (s.status ≠ .uninstalling)
  { s with events := s.events.map fun e =>
      if e.pending then { e with toAbort := true, target, pending := false } else e }

def removeAllPassengers (s : Vehicle) : Vehicle := s.abortPendingEvents.removeAurasByType

def uninstall (s : Vehicle) : Vehicle :=
  if s.status = .uninstalling ∧ s.minion = false then s
  else { s with status := .uninstalling }.removeAllPassengers

/-- The seat a join is made for: the first free one, or the one that is asked for. -/
def chooseSeat (s : Vehicle) (seatId : ℤ) : Option VehicleSeat :=
  if seatId < 0 then s.seats.rows.find? VehicleSeat.free else s.seats.get? seatId.toNat

/-- Puts a join into the queue of its passenger. -/
def addEvent (s : Vehicle) (passenger : ℕ) (seat : Option ℕ) : Vehicle :=
  { s with
    events := s.events ++ [⟨s.nextEvent, passenger, seat, seat.isNone, true, seat.isSome⟩]
    nextEvent := s.nextEvent + 1 }

/-- `Vehicle::AddPassenger`.  The join without a seat is aborted at once; whoever sits on
the seat that is asked for is sent off the vehicle. -/
def addPassenger (s : Vehicle) (unit : ℕ) (seatId : ℤ) : Vehicle :=
  if s.status = .uninstalling then s
  else
    match s.chooseSeat seatId with
    | none => s.addEvent unit none
    | some seat =>
      let s := s.addEvent unit (some seat.id)
      match seat.passenger with
      | none => s
      | some passenger => s.exitVehicle passenger

def ejectPassenger (s : Vehicle) (unit : ℕ) : Vehicle :=
  if unit ∉ s.aboard then s
  else
    match s.getSeatIteratorForPassenger unit with
    | none => s
    | some _ => (s.removePassenger unit).exitVehicle unit

/-- `Vehicle::SetVehicleId`.  The seats are those of the new entry; `UsableSeatNum` stays
what it was. -/
def setVehicleId (s : Vehicle) (store : ℕ → Option VehicleEntry) (id : ℕ) : Vehicle :=
  if id = s.vehicleInfo.id then s
  else
    match store id with
    | none => s
    | some ve => { { s with vehicleInfo := ve }.removeAllPassengers with seats := ve.seats }

/-- Takes an event out of the queue and deletes it. -/
def deleteEvent (s : Vehicle) (id : ℕ) : Vehicle :=
  { s with events := s.events.filter fun e => e.id ≠ id }

/-- The passenger of a join takes its seat, and the other joins for the seat are off. -/
def takeSeat (s : Vehicle) (e : VehicleJoinEvent) (seat : VehicleSeat) : Vehicle :=
  { s.removePendingEventsForSeat seat.id with aboard := e.passenger :: s.aboard }.setPassenger
    seat.id (some e.passenger)

def execute (s : Vehicle) (e : VehicleJoinEvent) : Vehicle :=
  if e.passenger ∉ s.auras then { s with failed := some .aura }
  else
    match e.seat.bind s.seats.get? with
    | none => { s with failed := some .seat }
    | some seat =>
      let s := s.takeSeat e seat
      if seat.seatInfo.canEnterOrExit then
        if s.usableSeatNum = 0 then { s with failed := some .usableSeatNum }
        else
          let usableSeatNum := s.usableSeatNum - 1
          { s with usableSeatNum, npcFlag := s.npcFlag && decide (usableSeatNum ≠ 0) }
      else s

def abort (s : Vehicle) (e : VehicleJoinEvent) : Vehicle :=
  if e.target then s.removeAurasByCaster e.passenger else s

/-- The join of a number, if it is still in a queue. -/
def event (s : Vehicle) (id : ℕ) : Option VehicleJoinEvent := s.events.find? fun e => e.id = id

/-- `EventProcessor::Update` reaches a join. -/
def runEvent (s : Vehicle) (id : ℕ) : Vehicle :=
  match s.event id with
  | none => s
  | some e => (if e.toAbort then s.abort e else s.execute e).deleteEvent id

/-- `EventProcessor::KillAllEvents` reaches a join. -/
def killEvent (s : Vehicle) (id : ℕ) : Vehicle :=
  match s.event id with
  | none => s
  | some e => (s.abort e).deleteEvent id

/-- What happens to a vehicle. -/
inductive Request where
  | install
  | applyAura (caster : ℕ)
  | removeAura (caster : ℕ)
  | addPassenger (unit : ℕ) (seatId : ℤ)
  | exitVehicle (unit : ℕ)
  | ejectPassenger (unit : ℕ)
  | removePassenger (unit : ℕ)
  | removeAllPassengers
  | setVehicleId (id : ℕ)
  | uninstall
  | runEvent (id : ℕ)
  | killEvent (id : ℕ)

def serve (store : ℕ → Option VehicleEntry) (s : Vehicle) : Request → Vehicle
  | .install => { s with status := .installed }
  | .applyAura caster => { s with auras := caster :: s.auras }
  | .removeAura caster => s.removeAura caster
  | .addPassenger unit seatId => s.addPassenger unit seatId
  | .exitVehicle unit => s.exitVehicle unit
  | .ejectPassenger unit => s.ejectPassenger unit
  | .removePassenger unit => s.removePassenger unit
  | .removeAllPassengers => s.removeAllPassengers
  | .setVehicleId id => s.setVehicleId store id
  | .uninstall => s.uninstall
  | .runEvent id => s.runEvent id
  | .killEvent id => s.killEvent id

/-- One request, unless the server has ended. -/
def step (store : ℕ → Option VehicleEntry) (s : Vehicle) (r : Request) : Vehicle :=
  if s.failed.isSome then s else s.serve store r

/-- The join that boards in a request: the one whose turn comes and that is executed. -/
def boards (s : Vehicle) : Request → Option ℕ
  | .runEvent id =>
    if s.failed.isSome then none
    else (s.event id).bind fun e => if e.toAbort then none else some e.id
  | _ => none

end Vehicle
end ZerosCore.Vehicles
