import OxeeUI.Relay.ConnectionUnits

/-!
# Releasing connection units

What was released is never held again, so once every handle was released nothing is counted.
-/

namespace OxeeUI.Relay.ConnectionUnits

open OxeeUI.Library

variable {capacity : LedgerCapacity} {units next : ConnectionUnits}

def upgradeOver (upgrade : RelayConnectionUpgrade) : Bool := upgrade.state = .released

def reservationOver (reservation : HostDataReservation) : Bool :=
  reservation.state = .released ∨ reservation.state = .consumed

structure Ages (units next : ConnectionUnits) : Prop where
  upgrades : Lasting upgradeOver units.upgrades next.upgrades
  reservations : Lasting reservationOver units.reservations next.reservations
  bookings : Lasting id units.bookings next.bookings

theorem Ages.refl (units : ConnectionUnits) : units.Ages units :=
  ⟨.refl .., .refl .., .refl ..⟩

theorem Ages.trans {middle : ConnectionUnits} (early : units.Ages middle)
    (late : middle.Ages next) : units.Ages next :=
  ⟨early.upgrades.trans late.upgrades, early.reservations.trans late.reservations,
    early.bookings.trans late.bookings⟩

theorem ages_openUpgrade (hostData : Option Nat) (rebind : Bool) :
    units.Ages (units.openUpgrade hostData rebind) :=
  ⟨lasting_append .., .refl .., .refl ..⟩

theorem ages_reserveUpgrade (limit : ℚ) (rebind : Bool) :
    units.Ages (units.reserveUpgrade limit rebind).1 := by
  unfold reserveUpgrade
  split
  · exact .refl units
  · exact ages_openUpgrade none rebind

theorem ages_tryReservePhone : units.Ages (units.tryReservePhone capacity).1 := by
  unfold tryReservePhone
  split
  · exact .refl units
  · exact ⟨lasting_append .., lasting_append .., .refl ..⟩

theorem not_over_of_state {reservation : HostDataReservation} {state : ReservationState}
    (held : reservation.state = state) (live : state = .reserved ∨ state = .claimed) :
    reservationOver reservation = false := by
  rcases live with rfl | rfl <;> simp [reservationOver, held]

theorem ages_tryReserveHostData (connectionId : String) :
    units.Ages (units.tryReserveHostData capacity connectionId).1 := by
  unfold tryReserveHostData
  simp only
  split
  case h_1 => exact ages_reserveUpgrade _ _
  case h_2 handle reservation bound =>
    obtain ⟨stored, -, bound⟩ := Option.bind_eq_some_iff.mp bound
    obtain ⟨held, found, bound⟩ := Option.bind_eq_some_iff.mp bound
    simp only [Option.ite_none_right_eq_some, Option.some.injEq, Prod.mk.injEq] at bound
    obtain ⟨-, rfl, rfl⟩ := bound
    split
    case h_1 => exact ⟨.refl .., .refl .., .refl ..⟩
    case h_2 claimed claims =>
      refine ⟨lasting_append .., lasting_set found fun ended => ?_, .refl ..⟩
      rw [not_over_of_state (of_decide_eq_true (of_claim claims).1) (Or.inl rfl)] at ended
      cases ended

theorem ages_bind (handle : Nat) (connectionId : String) :
    units.Ages (units.bind handle connectionId).1 := by
  unfold bind
  split
  case h_1 => exact .refl units
  case h_2 reservation found =>
    split
    case isTrue => exact .refl units
    case isFalse =>
      have named : Lasting reservationOver units.reservations (units.reservations.set handle
          { reservation with connectionId := some connectionId }) := lasting_set found id
      simp only
      split <;> exact ⟨.refl .., named, .refl ..⟩

theorem ages_releaseReservation (handle : Nat) :
    units.Ages (units.releaseReservation handle).1 := by
  unfold releaseReservation
  split
  case h_1 => exact .refl units
  case h_2 reservation found =>
    refine ⟨.refl .., lasting_set found fun ended => ?_, .refl ..⟩
    split
    case isTrue => rfl
    case isFalse => exact ended

theorem ages_restore (units : ConnectionUnits) (handle : Nat) :
    units.Ages (units.restore handle) := by
  unfold restore
  split
  case h_1 => exact .refl units
  case h_2 reservation found =>
    split
    case isTrue => exact .refl units
    case isFalse claimed =>
      rw [not_not] at claimed
      have live := not_over_of_state claimed (Or.inr rfl)
      split <;>
        exact ⟨.refl .., lasting_set found fun ended => absurd (live.symm.trans ended) (by decide),
          .refl ..⟩

theorem Ages.restore (ages : units.Ages next) (handle : Nat) :
    units.Ages (next.restore handle) :=
  ages.trans (ages_restore next handle)

theorem ages_promote (handle : Nat) : units.Ages (units.promote handle).1 := by
  unfold promote
  split
  case h_1 => exact .refl units
  case h_2 upgrade found =>
    split
    case isTrue => exact .refl units
    case isFalse flying =>
      rw [not_not] at flying
      refine ⟨lasting_set found fun ended => ?_, .refl .., .refl ..⟩
      simp [upgradeOver, flying] at ended

theorem ages_commitHostData (handle : Nat) : units.Ages (units.commitHostData handle).1 := by
  unfold commitHostData
  simp only
  split
  case h_1 => exact .refl units
  case h_2 =>
    split
    case h_1 => exact .refl units
    case h_2 reservation found =>
      refine ⟨.refl .., lasting_set found fun ended => ?_, .refl ..⟩
      unfold HostDataReservation.consume
      split
      · exact ended
      · rfl

theorem ages_releaseUpgrade (handle : Nat) : units.Ages (units.releaseUpgrade handle).1 := by
  unfold releaseUpgrade
  split
  case h_1 => exact .refl units
  case h_2 upgrade found =>
    split
    case isTrue => exact .refl units
    case isFalse =>
      have gone : Lasting upgradeOver units.upgrades
          (units.upgrades.set handle { upgrade with state := .released }) :=
        lasting_set found fun _ => rfl
      simp only
      split
      case h_1 => exact ⟨gone, .refl .., .refl ..⟩
      case h_2 reserved _ =>
        refine Ages.restore ?_ reserved
        exact ⟨gone, .refl .., .refl ..⟩

theorem ages_call (next : UnitCall) : units.Ages (units.call capacity next).1 := by
  cases next with
  | tryReserveControl rebind => exact ages_reserveUpgrade _ rebind
  | tryReservePhone => exact ages_tryReservePhone
  | bind hostData connectionId => exact ages_bind hostData connectionId
  | tryReserveHostData connectionId => exact ages_tryReserveHostData connectionId
  | tryReserveBooking limit =>
    show units.Ages (units.tryReserveBooking capacity limit).1
    unfold tryReserveBooking
    split
    · exact .refl units
    · exact ⟨.refl .., .refl .., lasting_append ..⟩
  | promote upgrade => exact ages_promote upgrade
  | commitHostData upgrade => exact ages_commitHostData upgrade
  | release handle =>
    cases handle with
    | upgrade handle => exact ages_releaseUpgrade handle
    | hostData handle => exact ages_releaseReservation handle
    | booking handle =>
      show units.Ages (units.releaseBooking handle).1
      unfold releaseBooking
      split
      case h_1 found => exact ⟨.refl .., .refl .., lasting_set found fun _ => rfl⟩
      case h_2 => exact .refl units
  | snapshot => exact ⟨.refl .., .refl .., .refl ..⟩

def Opened (units : ConnectionUnits) : UnitHandle → Prop
  | .upgrade handle => handle < units.upgrades.length
  | .hostData handle => handle < units.reservations.length
  | .booking handle => handle < units.bookings.length

/-- What the handle stands for holds no unit and never will. -/
def Over (units : ConnectionUnits) : UnitHandle → Prop
  | .upgrade handle => ∃ upgrade, units.upgrades[handle]? = some upgrade ∧ upgradeOver upgrade
  | .hostData handle =>
    ∃ reservation, units.reservations[handle]? = some reservation ∧ reservationOver reservation
  | .booking handle => ∃ released, units.bookings[handle]? = some released ∧ id released

theorem Over.ages {handle : UnitHandle} (ended : units.Over handle) (ages : units.Ages next) :
    next.Over handle := by
  cases handle with
  | upgrade handle =>
    obtain ⟨upgrade, found, ended⟩ := ended
    exact ages.upgrades.stays handle upgrade found ended
  | hostData handle =>
    obtain ⟨reservation, found, ended⟩ := ended
    exact ages.reservations.stays handle reservation found ended
  | booking handle =>
    obtain ⟨released, found, ended⟩ := ended
    exact ages.bookings.stays handle released found ended

theorem Over.calls {handle : UnitHandle} (ended : units.Over handle) (calls : List UnitCall) :
    (calls.foldl (fun units next => (units.call capacity next).1) units).Over handle := by
  induction calls generalizing units with
  | nil => exact ended
  | cons next rest ih => exact ih (ended.ages (ages_call next))

theorem over_release {handle : UnitHandle} (opened : units.Opened handle) :
    (units.call capacity (.release handle)).1.Over handle := by
  cases handle with
  | upgrade handle =>
    have found : units.upgrades[handle]? = some _ := List.getElem?_eq_getElem opened
    show (units.releaseUpgrade handle).1.Over _
    unfold releaseUpgrade
    rw [found]
    simp only
    split
    case isTrue ended => exact ⟨_, found, decide_eq_true ended⟩
    case isFalse =>
      have gone : (units.upgrades.set handle
          { units.upgrades[handle] with state := .released })[handle]? = _ :=
        List.getElem?_set_self opened
      split
      case h_1 => exact ⟨_, gone, rfl⟩
      case h_2 reserved _ =>
        exact (ages_restore _ reserved).upgrades.stays handle _ gone rfl
  | hostData handle =>
    have found : units.reservations[handle]? = some _ := List.getElem?_eq_getElem opened
    show (units.releaseReservation handle).1.Over _
    unfold releaseReservation
    rw [found]
    refine ⟨_, List.getElem?_set_self opened, ?_⟩
    split
    case isTrue => rfl
    case isFalse consumed =>
      rw [not_not] at consumed
      simp [reservationOver, consumed]
  | booking handle =>
    have found : units.bookings[handle]? = some _ := List.getElem?_eq_getElem opened
    show (units.releaseBooking handle).1.Over _
    unfold releaseBooking
    split
    case h_1 => exact ⟨true, List.getElem?_set_self opened, rfl⟩
    case h_2 live =>
      cases held : units.bookings[handle] with
      | false => exact absurd (held ▸ found) live
      | true => exact ⟨true, held ▸ found, rfl⟩

theorem Conserved.counters_eq_zero (conserved : units.Conserved)
    (ended : ∀ handle, units.Opened handle → units.Over handle) :
    units.ledger.physicalConnections = 0 ∧ units.ledger.inFlightConnections = 0 ∧
      units.ledger.reservedConnectionUnits = 0 := by
  have upgrades : ∀ (handle : Nat) (upgrade : RelayConnectionUpgrade),
      units.upgrades[handle]? = some upgrade → upgrade.state = .released := by
    intro handle upgrade found
    obtain ⟨other, found', released⟩ :=
      ended (.upgrade handle) (List.getElem?_eq_some_iff.mp found).1
    obtain rfl := Option.some.inj (found.symm.trans found')
    exact of_decide_eq_true released
  refine ⟨?_, ?_, ?_⟩
  · rw [conserved.physical, countP_eq_zero_of_getElem? fun handle upgrade found => ?_]
    · rfl
    · simp [isPhysical, upgrades handle upgrade found]
  · rw [conserved.inFlight, countP_eq_zero_of_getElem? fun handle upgrade found => ?_]
    · rfl
    · simp [isInFlight, upgrades handle upgrade found]
  · have reservations : units.reservations.countP isReserved = 0 := by
      refine countP_eq_zero_of_getElem? fun handle reservation found => ?_
      obtain ⟨other, found', ended⟩ :=
        ended (.hostData handle) (List.getElem?_eq_some_iff.mp found).1
      obtain rfl := Option.some.inj (found.symm.trans found')
      rcases of_decide_eq_true ended with released | consumed
      · simp [isReserved, released]
      · simp [isReserved, consumed]
    have bookings : units.bookings.countP not = 0 := by
      refine countP_eq_zero_of_getElem? fun handle released found => ?_
      obtain ⟨other, found', ended⟩ :=
        ended (.booking handle) (List.getElem?_eq_some_iff.mp found).1
      obtain rfl := Option.some.inj (found.symm.trans found')
      rw [show released = true from ended]
      rfl
    rw [conserved.reserved, reservations, bookings]
    rfl

/-! ## Every run -/

theorem after_append (seen : List UnitCall) (next : UnitCall) :
    after capacity (seen ++ [next]) = ((after capacity seen).call capacity next).1 :=
  List.foldl_append ..

/-- The handle was released, at a time when it had been given out. -/
def ReleasedIn (capacity : LedgerCapacity) (calls : List UnitCall) (handle : UnitHandle) : Prop :=
  ∃ seen, seen ++ [.release handle] <+: calls ∧ (after capacity seen).Opened handle

theorem over_of_releasedIn {calls : List UnitCall} {handle : UnitHandle}
    (released : ReleasedIn capacity calls handle) : (after capacity calls).Over handle := by
  obtain ⟨seen, ⟨rest, rfl⟩, opened⟩ := released
  have ends : (after capacity (seen ++ [.release handle])).Over handle := by
    rw [after_append]
    exact over_release opened
  rw [after, List.foldl_append]
  exact ends.calls rest

/-- Whatever is called, units are conserved and capped: no counter is negative, their sum stays
within the hard cap and the units that are not rebinding controls' within what the reserve
leaves, every unit is counted by the one that holds it, and none is left when every handle
was released. -/
theorem connection_units_conserved (capacity : LedgerCapacity) (calls : List UnitCall) :
    let units := after capacity calls
    (0 ≤ units.ledger.physicalConnections ∧ 0 ≤ units.ledger.inFlightConnections ∧
      0 ≤ units.ledger.reservedConnectionUnits) ∧
    units.Within capacity ∧ units.Conserved ∧
    ((∀ handle, units.Opened handle → ReleasedIn capacity calls handle) →
      units.ledger.physicalConnections = 0 ∧ units.ledger.inFlightConnections = 0 ∧
        units.ledger.reservedConnectionUnits = 0) := by
  have sound := sound_after capacity calls
  refine ⟨⟨?_, ?_, ?_⟩, sound.within, sound.conserved, fun released => ?_⟩
  · rw [sound.conserved.physical]
    exact Int.natCast_nonneg _
  · rw [sound.conserved.inFlight]
    exact Int.natCast_nonneg _
  · rw [sound.conserved.reserved]
    omega
  · exact sound.conserved.counters_eq_zero fun handle opened =>
      over_of_releasedIn (released handle opened)

end OxeeUI.Relay.ConnectionUnits
