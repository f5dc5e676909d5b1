import Mathlib.Algebra.Order.Ring.Rat
import OxeeUI.Library.JsMap

/-!
# The connection ledger

A unit of a cell's capacity is held by an upgrade, in flight or physical, by a reservation
of host data, or by a booking.  The ledger only counts the units; those who hold them are
objects with a state of their own.
-/

namespace OxeeUI.Relay

open OxeeUI.Library

inductive ReservationState
  | reserved | claimed | consumed | released
deriving DecidableEq

structure HostDataReservation where
  state : ReservationState
  connectionId : Option String

inductive UpgradeState
  | inFlight | physical | released
deriving DecidableEq

structure RelayConnectionUpgrade where
  state : UpgradeState
  inclusionWatermark : Nat
  hostDataReservation : Option Nat
  /-- Whether it was reserved for a control that binds again; the ledger never reads it. -/
  rebind : Bool

/-- The capacity a ledger is constructed with; other values throw. -/
structure LedgerCapacity where
  hardCap : ℚ
  controlReserve : ℚ
  reserve_nonneg : 0 ≤ controlReserve
  reserve_lt : controlReserve < hardCap

def LedgerCapacity.normalAdmissionLimit (capacity : LedgerCapacity) : ℚ :=
  capacity.hardCap - capacity.controlReserve

structure RelayConnectionLedger where
  physicalConnections : Int
  inFlightConnections : Int
  reservedConnectionUnits : Int
  inclusionWatermark : Nat
  hostDataByConnectionId : JsMap String Nat

namespace RelayConnectionLedger

def new : RelayConnectionLedger := ⟨0, 0, 0, 0, .empty⟩

def enforcedConnectionUnits (ledger : RelayConnectionLedger) : Int :=
  ledger.physicalConnections + ledger.inFlightConnections + ledger.reservedConnectionUnits

def advanceWatermark (ledger : RelayConnectionLedger) : RelayConnectionLedger :=
  { ledger with inclusionWatermark := ledger.inclusionWatermark + 1 }

def canReserveBooking (capacity : LedgerCapacity) (ledger : RelayConnectionLedger) (limit : ℚ) :
    Bool :=
  (ledger.enforcedConnectionUnits : ℚ) + 1 ≤ min limit capacity.normalAdmissionLimit

/-- `bindHostData`; none is a conflict. -/
def bindHostData (ledger : RelayConnectionLedger) (connectionId : String) (reservation : Nat) :
    Option RelayConnectionLedger :=
  if ledger.hostDataByConnectionId.has connectionId then none
  else
    some { ledger with
      hostDataByConnectionId := ledger.hostDataByConnectionId.set connectionId reservation }

def releaseReserved (ledger : RelayConnectionLedger) (handle : Nat)
    (reservation : HostDataReservation) : RelayConnectionLedger :=
  let unbound :=
    match reservation.connectionId with
    | some connectionId =>
      if connectionId ≠ "" ∧ ledger.hostDataByConnectionId.get? connectionId = some handle then
        { ledger with
          hostDataByConnectionId := ledger.hostDataByConnectionId.delete connectionId }
      else ledger
    | none => ledger
  { unbound.advanceWatermark with
    reservedConnectionUnits := unbound.reservedConnectionUnits - 1 }

/-- `restoreReserved`; none when the connection's id is missing or taken. -/
def restoreReserved (ledger : RelayConnectionLedger) (handle : Nat)
    (reservation : HostDataReservation) : Option RelayConnectionLedger :=
  match reservation.connectionId with
  | none => none
  | some connectionId =>
    if connectionId = "" ∨ ledger.hostDataByConnectionId.has connectionId then none
    else
      some { ledger.advanceWatermark with
        reservedConnectionUnits := ledger.reservedConnectionUnits + 1
        hostDataByConnectionId := ledger.hostDataByConnectionId.set connectionId handle }

def promoteUpgrade (ledger : RelayConnectionLedger) : RelayConnectionLedger :=
  { ledger.advanceWatermark with
    inFlightConnections := ledger.inFlightConnections - 1
    physicalConnections := ledger.physicalConnections + 1 }

def releaseUpgrade (ledger : RelayConnectionLedger) : RelayConnectionLedger :=
  { ledger.advanceWatermark with inFlightConnections := ledger.inFlightConnections - 1 }

def releasePhysical (ledger : RelayConnectionLedger) : RelayConnectionLedger :=
  { ledger.advanceWatermark with physicalConnections := ledger.physicalConnections - 1 }

end RelayConnectionLedger

namespace HostDataReservation

/-- `claim`; none when the reservation is unavailable. -/
def claim (reservation : HostDataReservation) : Option HostDataReservation :=
  if reservation.state ≠ .reserved then none else some { reservation with state := .claimed }

def consume (reservation : HostDataReservation) : HostDataReservation × Bool :=
  if reservation.state ≠ .claimed then (reservation, false)
  else ({ reservation with state := .consumed }, true)

def matchesId (reservation : HostDataReservation) (connectionId : String) : Bool :=
  reservation.connectionId = some connectionId

end HostDataReservation

/-- A ledger and the objects that hold its units, each by its handle. -/
structure ConnectionUnits where
  ledger : RelayConnectionLedger
  reservations : List HostDataReservation
  upgrades : List RelayConnectionUpgrade
  /-- Of each booking, whether it was released. -/
  bookings : List Bool

inductive LedgerError
  | alreadyBound | unavailable | upgradeNotInFlight | conflict

inductive UnitOutcome
  | done
  | full
  | upgrade (handle : Nat)
  | phone (upgrade hostData : Nat)
  | booking (handle : Nat)
  | committed (consumed : Bool)
  | threw (error : LedgerError)

namespace ConnectionUnits

variable (capacity : LedgerCapacity)

def start : ConnectionUnits := ⟨.new, [], [], []⟩

/-- Another upgrade in flight, under the watermark just advanced. -/
def openUpgrade (units : ConnectionUnits) (hostDataReservation : Option Nat) (rebind : Bool) :
    ConnectionUnits :=
  let ledger := units.ledger.advanceWatermark
  { units with
    ledger := { ledger with inFlightConnections := ledger.inFlightConnections + 1 }
    upgrades := units.upgrades ++
      [⟨.inFlight, ledger.inclusionWatermark, hostDataReservation, rebind⟩] }

def reserveUpgrade (units : ConnectionUnits) (limit : ℚ) (rebind : Bool) :
    ConnectionUnits × UnitOutcome :=
  if (units.ledger.enforcedConnectionUnits : ℚ) + 1 > limit then (units, .full)
  else (units.openUpgrade none rebind, .upgrade units.upgrades.length)

def tryReserveControl (units : ConnectionUnits) (rebind : Bool) : ConnectionUnits × UnitOutcome :=
  units.reserveUpgrade (if rebind then capacity.hardCap else capacity.normalAdmissionLimit) rebind

def tryReservePhone (units : ConnectionUnits) : ConnectionUnits × UnitOutcome :=
  if (units.ledger.enforcedConnectionUnits : ℚ) + 2 > capacity.normalAdmissionLimit then
    (units, .full)
  else
    let opened := units.openUpgrade none false
    ({ opened with
        ledger := { opened.ledger with
          reservedConnectionUnits := opened.ledger.reservedConnectionUnits + 1 }
        reservations := opened.reservations ++ [⟨.reserved, none⟩] },
      .phone units.upgrades.length units.reservations.length)

def tryReserveHostData (units : ConnectionUnits) (connectionId : String) :
    ConnectionUnits × UnitOutcome :=
  let bound := (units.ledger.hostDataByConnectionId.get? connectionId).bind fun handle =>
    (units.reservations[handle]?).bind fun reservation =>
      if reservation.matchesId connectionId then some (handle, reservation) else none
  match bound with
  | none => units.reserveUpgrade capacity.normalAdmissionLimit false
  | some (handle, reservation) =>
    let unbound : ConnectionUnits :=
      { units with
        ledger := { units.ledger with
          hostDataByConnectionId := units.ledger.hostDataByConnectionId.delete connectionId } }
    match reservation.claim with
    | none => (unbound, .threw .unavailable)
    | some claimed =>
      let opened := unbound.openUpgrade (some handle) false
      ({ opened with
          ledger := { opened.ledger with
            reservedConnectionUnits := opened.ledger.reservedConnectionUnits - 1 }
          reservations := opened.reservations.set handle claimed },
        .upgrade units.upgrades.length)

def tryReserveBooking (units : ConnectionUnits) (limit : ℚ) : ConnectionUnits × UnitOutcome :=
  if !units.ledger.canReserveBooking capacity limit then (units, .full)
  else
    ({ units with
        ledger := { units.ledger.advanceWatermark with
          reservedConnectionUnits := units.ledger.reservedConnectionUnits + 1 }
        bookings := units.bookings ++ [false] },
      .booking units.bookings.length)

/-- `HostDataReservation.bind`: a conflict leaves the id with the reservation. -/
def bind (units : ConnectionUnits) (handle : Nat) (connectionId : String) :
    ConnectionUnits × UnitOutcome :=
  match units.reservations[handle]? with
  | none => (units, .done)
  | some reservation =>
    if reservation.state ≠ .reserved ∨ reservation.connectionId ≠ none then
      (units, .threw .alreadyBound)
    else
      let named :=
        { units with
          reservations := units.reservations.set handle
            { reservation with connectionId := some connectionId } }
      match units.ledger.bindHostData connectionId handle with
      | none => (named, .threw .conflict)
      | some ledger => ({ named with ledger := ledger }, .done)

/-- `HostDataReservation.release`. -/
def releaseReservation (units : ConnectionUnits) (handle : Nat) : ConnectionUnits × UnitOutcome :=
  match units.reservations[handle]? with
  | none => (units, .done)
  | some reservation =>
    let ledger :=
      if reservation.state = .reserved then units.ledger.releaseReserved handle reservation
      else units.ledger
    let reservation :=
      if reservation.state ≠ .consumed then { reservation with state := .released }
      else reservation
    ({ units with ledger := ledger, reservations := units.reservations.set handle reservation },
      .done)

/-- `HostDataReservation.restore`. -/
def restore (units : ConnectionUnits) (handle : Nat) : ConnectionUnits :=
  match units.reservations[handle]? with
  | none => units
  | some reservation =>
    if reservation.state ≠ .claimed then units
    else
      match units.ledger.restoreReserved handle reservation with
      | none =>
        { units with
          reservations := units.reservations.set handle { reservation with state := .released } }
      | some ledger =>
        { units with
          ledger := ledger
          reservations := units.reservations.set handle { reservation with state := .reserved } }

/-- `RelayConnectionUpgrade.promote`; the socket's close event is a release. -/
def promote (units : ConnectionUnits) (handle : Nat) : ConnectionUnits × UnitOutcome :=
  match units.upgrades[handle]? with
  | none => (units, .done)
  | some upgrade =>
    if upgrade.state ≠ .inFlight then (units, .threw .upgradeNotInFlight)
    else
      ({ units with
          ledger := units.ledger.promoteUpgrade
          upgrades := units.upgrades.set handle { upgrade with state := .physical } },
        .done)

/-- `RelayConnectionUpgrade.commitHostData`. -/
def commitHostData (units : ConnectionUnits) (handle : Nat) : ConnectionUnits × UnitOutcome :=
  let held := (units.upgrades[handle]?).bind RelayConnectionUpgrade.hostDataReservation
  match held with
  | none => (units, .committed false)
  | some reserved =>
    match units.reservations[reserved]? with
    | none => (units, .committed false)
    | some reservation =>
      ({ units with
          reservations := units.reservations.set reserved reservation.consume.1 },
        .committed reservation.consume.2)

/-- `RelayConnectionUpgrade.release`. -/
def releaseUpgrade (units : ConnectionUnits) (handle : Nat) : ConnectionUnits × UnitOutcome :=
  match units.upgrades[handle]? with
  | none => (units, .done)
  | some upgrade =>
    if upgrade.state = .released then (units, .done)
    else
      let ledger :=
        if upgrade.state = .inFlight then units.ledger.releaseUpgrade
        else units.ledger.releasePhysical
      let released : ConnectionUnits :=
        { units with
          ledger := ledger
          upgrades := units.upgrades.set handle { upgrade with state := .released } }
      match upgrade.hostDataReservation with
      | none => (released, .done)
      | some reserved => (released.restore reserved, .done)

/-- The `release` of a booking. -/
def releaseBooking (units : ConnectionUnits) (handle : Nat) : ConnectionUnits × UnitOutcome :=
  match units.bookings[handle]? with
  | some false =>
    ({ units with
        ledger := { units.ledger.advanceWatermark with
          reservedConnectionUnits := units.ledger.reservedConnectionUnits - 1 }
        bookings := units.bookings.set handle true },
      .done)
  | _ => (units, .done)

/-- `snapshot` advances the watermark alone. -/
def snapshot (units : ConnectionUnits) : ConnectionUnits × UnitOutcome :=
  ({ units with ledger := units.ledger.advanceWatermark }, .done)

end ConnectionUnits

inductive UnitHandle
  | upgrade (handle : Nat)
  | hostData (handle : Nat)
  | booking (handle : Nat)

inductive UnitCall
  | tryReserveControl (rebind : Bool)
  | tryReservePhone
  | bind (hostData : Nat) (connectionId : String)
  | tryReserveHostData (connectionId : String)
  | tryReserveBooking (limit : ℚ)
  | promote (upgrade : Nat)
  | commitHostData (upgrade : Nat)
  | release (handle : UnitHandle)
  | snapshot

namespace ConnectionUnits

variable (capacity : LedgerCapacity)

def call (units : ConnectionUnits) : UnitCall → ConnectionUnits × UnitOutcome
  | .tryReserveControl rebind => units.tryReserveControl capacity rebind
  | .tryReservePhone => units.tryReservePhone capacity
  | .bind hostData connectionId => units.bind hostData connectionId
  | .tryReserveHostData connectionId => units.tryReserveHostData capacity connectionId
  | .tryReserveBooking limit => units.tryReserveBooking capacity limit
  | .promote upgrade => units.promote upgrade
  | .commitHostData upgrade => units.commitHostData upgrade
  | .release (.upgrade handle) => units.releaseUpgrade handle
  | .release (.hostData handle) => units.releaseReservation handle
  | .release (.booking handle) => units.releaseBooking handle
  | .snapshot => units.snapshot

def after (calls : List UnitCall) : ConnectionUnits :=
  calls.foldl (fun units next => (units.call capacity next).1) start

end ConnectionUnits

end OxeeUI.Relay
