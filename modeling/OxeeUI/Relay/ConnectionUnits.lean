import Mathlib.Tactic.Linarith
import Mathlib.Tactic.Ring
import OxeeUI.Library.Handles
import OxeeUI.Library.Run
import OxeeUI.Relay.ConnectionLedger

/-!
# The units of a connection ledger

The counters of the ledger are what those who hold its units amount to, and an admission
keeps them within the capacity.
-/

namespace OxeeUI.Relay.ConnectionUnits

open OxeeUI.Library

variable (capacity : LedgerCapacity)

/-! ## What holds the units -/

def isInFlight (upgrade : RelayConnectionUpgrade) : Bool := upgrade.state = .inFlight

def isPhysical (upgrade : RelayConnectionUpgrade) : Bool := upgrade.state = .physical

def holdsReserve (upgrade : RelayConnectionUpgrade) : Bool :=
  upgrade.rebind ∧ upgrade.state ≠ .released

def isReserved (reservation : HostDataReservation) : Bool := reservation.state = .reserved

def rebindUnits (units : ConnectionUnits) : Nat := units.upgrades.countP holdsReserve

structure Conserved (units : ConnectionUnits) : Prop where
  physical : units.ledger.physicalConnections = units.upgrades.countP isPhysical
  inFlight : units.ledger.inFlightConnections = units.upgrades.countP isInFlight
  reserved : units.ledger.reservedConnectionUnits =
    units.reservations.countP isReserved + units.bookings.countP not

/-- The units stay within the capacity, and those of other than rebinding controls within the
part that is for them. -/
structure Within (units : ConnectionUnits) : Prop where
  total : (units.ledger.enforcedConnectionUnits : ℚ) ≤ capacity.hardCap
  normal : ((units.ledger.enforcedConnectionUnits - units.rebindUnits : Int) : ℚ) ≤
    capacity.normalAdmissionLimit

/-- Only other than rebinding controls take up reservations. -/
def HostDataNormal (units : ConnectionUnits) : Prop :=
  ∀ upgrade ∈ units.upgrades, upgrade.hostDataReservation.isSome → upgrade.rebind = false

variable {capacity} {units next : ConnectionUnits}

theorem Within.of_le (within : units.Within capacity)
    (total : next.ledger.enforcedConnectionUnits ≤ units.ledger.enforcedConnectionUnits)
    (normal : next.ledger.enforcedConnectionUnits - next.rebindUnits ≤
      units.ledger.enforcedConnectionUnits - units.rebindUnits) : next.Within capacity where
  total := (Int.cast_le.mpr total).trans within.total
  normal := (Int.cast_le.mpr normal).trans within.normal

theorem Within.of_normal
    (fits : (next.ledger.enforcedConnectionUnits : ℚ) ≤ capacity.normalAdmissionLimit) :
    next.Within capacity := by
  have reserve := capacity.reserve_nonneg
  refine ⟨?_, le_trans (Int.cast_le.mpr ?_) fits⟩
  · unfold LedgerCapacity.normalAdmissionLimit at fits
    linarith
  · omega

/-! ## What one call does -/

theorem enforced_openUpgrade (hostData : Option Nat) (rebind : Bool) :
    (units.openUpgrade hostData rebind).ledger.enforcedConnectionUnits =
      units.ledger.enforcedConnectionUnits + 1 := by
  simp only [openUpgrade, RelayConnectionLedger.enforcedConnectionUnits,
    RelayConnectionLedger.advanceWatermark]
  omega

theorem rebindUnits_openUpgrade (hostData : Option Nat) (rebind : Bool) :
    (units.openUpgrade hostData rebind).rebindUnits =
      units.rebindUnits + (if rebind then 1 else 0) := by
  unfold rebindUnits openUpgrade
  rw [countP_append_singleton]
  cases rebind <;> rfl

theorem Conserved.openUpgrade (conserved : units.Conserved) (hostData : Option Nat)
    (rebind : Bool) : (units.openUpgrade hostData rebind).Conserved where
  physical := by
    simp only [ConnectionUnits.openUpgrade, countP_append_singleton]
    exact conserved.physical
  inFlight := by
    simp only [ConnectionUnits.openUpgrade, countP_append_singleton]
    rw [show units.ledger.advanceWatermark.inFlightConnections = _ from conserved.inFlight]
    rfl
  reserved := conserved.reserved

/-- The invariant of a ledger and those who hold its units. -/
structure Sound (capacity : LedgerCapacity) (units : ConnectionUnits) : Prop where
  conserved : units.Conserved
  within : units.Within capacity
  hostData : units.HostDataNormal

theorem sound_start (capacity : LedgerCapacity) : start.Sound capacity where
  conserved := ⟨rfl, rfl, rfl⟩
  within := by
    refine .of_normal ?_
    have lower := capacity.reserve_lt
    show ((0 : Int) : ℚ) ≤ capacity.hardCap - capacity.controlReserve
    rw [Int.cast_zero]
    linarith
  hostData := by
    intro upgrade member
    cases member

theorem HostDataNormal.openUpgrade (normal : units.HostDataNormal) {hostData : Option Nat}
    {rebind : Bool} (apart : hostData.isSome → rebind = false) :
    (units.openUpgrade hostData rebind).HostDataNormal := by
  intro upgrade member
  rcases List.mem_append.mp member with old | new
  · exact normal upgrade old
  · rw [List.mem_singleton.mp new]
    exact apart

theorem HostDataNormal.set {handle : Nat} {upgrade : RelayConnectionUpgrade}
    (normal : units.HostDataNormal) (found : units.upgrades[handle]? = some upgrade)
    (state : UpgradeState) (upgrades : next.upgrades =
      units.upgrades.set handle { upgrade with state := state }) : next.HostDataNormal := by
  intro other member
  rw [upgrades] at member
  rcases List.mem_or_eq_of_mem_set member with old | rfl
  · exact normal other old
  · exact normal upgrade (List.mem_of_getElem? found)

theorem sound_reserveUpgrade (sound : units.Sound capacity) {limit : ℚ} {rebind : Bool}
    (below : limit ≤ if rebind then capacity.hardCap else capacity.normalAdmissionLimit) :
    (units.reserveUpgrade limit rebind).1.Sound capacity := by
  unfold reserveUpgrade
  split
  case isTrue => exact sound
  case isFalse fits =>
    rw [not_lt] at fits
    refine ⟨sound.conserved.openUpgrade none rebind, ?_, sound.hostData.openUpgrade (by simp)⟩
    have total : (units.openUpgrade none rebind).ledger.enforcedConnectionUnits = _ :=
      enforced_openUpgrade none rebind
    have cast : ((units.openUpgrade none rebind).ledger.enforcedConnectionUnits : ℚ) ≤ limit := by
      rw [total]
      push_cast
      exact fits
    cases rebind with
    | false => exact .of_normal (cast.trans below)
    | true =>
      refine ⟨cast.trans below, le_trans (Int.cast_le.mpr ?_) sound.within.normal⟩
      rw [total, rebindUnits_openUpgrade, if_pos rfl]
      push_cast
      omega

theorem sound_tryReserveControl (sound : units.Sound capacity) (rebind : Bool) :
    (units.tryReserveControl capacity rebind).1.Sound capacity :=
  sound_reserveUpgrade sound (le_refl _)

theorem sound_tryReservePhone (sound : units.Sound capacity) :
    (units.tryReservePhone capacity).1.Sound capacity := by
  unfold tryReservePhone
  split
  case isTrue => exact sound
  case isFalse fits =>
    rw [not_lt] at fits
    have opened := sound.conserved.openUpgrade none false
    refine ⟨⟨opened.physical, opened.inFlight, ?_⟩, .of_normal ?_, ?_⟩
    · have reserved := opened.reserved
      simp only [countP_append_singleton, isReserved, decide_true, if_true] at reserved ⊢
      omega
    · have total : (units.openUpgrade none false).ledger.enforcedConnectionUnits = _ :=
        enforced_openUpgrade none false
      have raised : ((units.openUpgrade none false).ledger.enforcedConnectionUnits : ℚ) + 1 ≤
          capacity.normalAdmissionLimit := by
        rw [total]
        push_cast
        linarith
      refine le_trans (Int.cast_le.mpr ?_) (by exact_mod_cast raised)
      simp only [RelayConnectionLedger.enforcedConnectionUnits]
      omega
    · exact sound.hostData.openUpgrade (by simp)

theorem Within.of_eq (within : units.Within capacity)
    (total : next.ledger.enforcedConnectionUnits = units.ledger.enforcedConnectionUnits)
    (upgrades : next.rebindUnits = units.rebindUnits) : next.Within capacity :=
  within.of_le (Int.le_of_eq total) (by rw [total, upgrades])

theorem of_claim {reservation claimed : HostDataReservation}
    (claims : reservation.claim = some claimed) :
    isReserved reservation = true ∧ isReserved claimed = false := by
  unfold HostDataReservation.claim at claims
  split at claims
  case isTrue => cases claims
  case isFalse reserved =>
    obtain rfl := Option.some.inj claims
    rw [not_not] at reserved
    exact ⟨decide_eq_true reserved, rfl⟩

theorem sound_tryReserveHostData (sound : units.Sound capacity) (connectionId : String) :
    (units.tryReserveHostData capacity connectionId).1.Sound capacity := by
  unfold tryReserveHostData
  simp only
  split
  case h_1 => exact sound_reserveUpgrade sound (le_refl _)
  case h_2 handle reservation bound =>
    obtain ⟨stored, -, bound⟩ := Option.bind_eq_some_iff.mp bound
    obtain ⟨held, found, bound⟩ := Option.bind_eq_some_iff.mp bound
    simp only [Option.ite_none_right_eq_some, Option.some.injEq, Prod.mk.injEq] at bound
    obtain ⟨-, rfl, rfl⟩ := bound
    split
    case h_1 => exact ⟨⟨sound.conserved.physical, sound.conserved.inFlight,
      sound.conserved.reserved⟩, sound.within.of_eq rfl rfl, sound.hostData⟩
    case h_2 claimed claims =>
      obtain ⟨was, becomes⟩ := of_claim claims
      have opened := sound.conserved.openUpgrade (some stored) false
      have counted := countP_set_add found isReserved claimed
      rw [was, becomes] at counted
      simp only [if_true, Bool.false_eq_true, if_false] at counted
      refine ⟨⟨opened.physical, opened.inFlight, ?_⟩, sound.within.of_eq ?_ ?_, ?_⟩
      · have reserved := opened.reserved
        simp only [openUpgrade, RelayConnectionLedger.advanceWatermark] at reserved ⊢
        omega
      · have total : (units.openUpgrade (some stored) false).ledger.enforcedConnectionUnits = _ :=
          enforced_openUpgrade (some stored) false
        simp only [openUpgrade, RelayConnectionLedger.enforcedConnectionUnits,
          RelayConnectionLedger.advanceWatermark] at total ⊢
        omega
      · have rebinds : (units.openUpgrade (some stored) false).rebindUnits = _ :=
          rebindUnits_openUpgrade (some stored) false
        exact rebinds
      · exact sound.hostData.openUpgrade fun _ => rfl

theorem sound_tryReserveBooking (sound : units.Sound capacity) (limit : ℚ) :
    (units.tryReserveBooking capacity limit).1.Sound capacity := by
  unfold tryReserveBooking
  split
  case isTrue => exact sound
  case isFalse fits =>
    rw [Bool.not_eq_true', Bool.not_eq_false, RelayConnectionLedger.canReserveBooking,
      decide_eq_true_eq] at fits
    refine ⟨⟨sound.conserved.physical, sound.conserved.inFlight, ?_⟩, .of_normal ?_,
      sound.hostData⟩
    · have reserved := sound.conserved.reserved
      simp only [countP_append_singleton, Bool.not_false, if_true] at reserved ⊢
      omega
    · refine le_trans (le_of_eq ?_) (fits.trans (min_le_right _ _))
      simp only [RelayConnectionLedger.enforcedConnectionUnits,
        RelayConnectionLedger.advanceWatermark]
      push_cast
      ring

theorem Conserved.setReservation (conserved : units.Conserved) {handle : Nat}
    {old new : HostDataReservation} {ledger : RelayConnectionLedger}
    (found : units.reservations[handle]? = some old)
    (physical : ledger.physicalConnections = units.ledger.physicalConnections)
    (inFlight : ledger.inFlightConnections = units.ledger.inFlightConnections)
    (reserved : ledger.reservedConnectionUnits + (if isReserved old then 1 else 0) =
      units.ledger.reservedConnectionUnits + (if isReserved new then 1 else 0)) :
    Conserved { units with
      ledger := ledger
      reservations := units.reservations.set handle new } where
  physical := physical.trans conserved.physical
  inFlight := inFlight.trans conserved.inFlight
  reserved := by
    have counted := countP_set_add found isReserved new
    have before := conserved.reserved
    show ledger.reservedConnectionUnits =
      (units.reservations.set handle new).countP isReserved + units.bookings.countP not
    cases was : isReserved old <;> cases becomes : isReserved new <;>
      simp only [was, becomes, if_true, Bool.false_eq_true, if_false] at counted reserved <;> omega

theorem Sound.setReservation (sound : units.Sound capacity) {handle : Nat}
    {old new : HostDataReservation} (found : units.reservations[handle]? = some old)
    {ledger : RelayConnectionLedger}
    (physical : ledger.physicalConnections = units.ledger.physicalConnections)
    (inFlight : ledger.inFlightConnections = units.ledger.inFlightConnections)
    (reserved : ledger.reservedConnectionUnits = units.ledger.reservedConnectionUnits)
    (same : isReserved new = isReserved old) :
    Sound capacity { units with
      ledger := ledger
      reservations := units.reservations.set handle new } where
  conserved := sound.conserved.setReservation found physical inFlight (by rw [reserved, same])
  within := sound.within.of_eq
    (by simp only [RelayConnectionLedger.enforcedConnectionUnits, physical, inFlight, reserved]) rfl
  hostData := sound.hostData

theorem sound_bind (sound : units.Sound capacity) (handle : Nat) (connectionId : String) :
    (units.bind handle connectionId).1.Sound capacity := by
  unfold bind
  split
  case h_1 => exact sound
  case h_2 reservation found =>
    split
    case isTrue => exact sound
    case isFalse =>
      simp only
      split
      case h_1 => exact sound.setReservation found rfl rfl rfl rfl
      case h_2 ledger bound =>
        unfold RelayConnectionLedger.bindHostData at bound
        simp only [Option.ite_none_left_eq_some, Option.some.injEq] at bound
        obtain ⟨-, rfl⟩ := bound
        exact sound.setReservation found rfl rfl rfl rfl

theorem releaseReserved_counts (ledger : RelayConnectionLedger) (handle : Nat)
    (reservation : HostDataReservation) :
    (ledger.releaseReserved handle reservation).physicalConnections = ledger.physicalConnections ∧
      (ledger.releaseReserved handle reservation).inFlightConnections =
        ledger.inFlightConnections ∧
      (ledger.releaseReserved handle reservation).reservedConnectionUnits =
        ledger.reservedConnectionUnits - 1 := by
  unfold RelayConnectionLedger.releaseReserved
  split
  · split <;> exact ⟨rfl, rfl, rfl⟩
  · exact ⟨rfl, rfl, rfl⟩

theorem sound_releaseReservation (sound : units.Sound capacity) (handle : Nat) :
    (units.releaseReservation handle).1.Sound capacity := by
  unfold releaseReservation
  split
  case h_1 => exact sound
  case h_2 reservation found =>
    by_cases reserved : reservation.state = .reserved
    · obtain ⟨physical, inFlight, units'⟩ :=
        releaseReserved_counts units.ledger handle reservation
      have live : isReserved reservation = true := decide_eq_true reserved
      have other : reservation.state ≠ .consumed := by
        rw [reserved]
        decide
      simp only [if_pos reserved, if_pos other]
      refine ⟨sound.conserved.setReservation found physical inFlight ?_, sound.within.of_le ?_ ?_,
        sound.hostData⟩
      · rw [live, units']
        simp [isReserved]
      all_goals
        simp only [RelayConnectionLedger.enforcedConnectionUnits, rebindUnits, physical, inFlight,
          units']
        omega
    · have idle : isReserved reservation = false := decide_eq_false reserved
      simp only [if_neg reserved]
      split
      case isTrue => exact sound.setReservation found rfl rfl rfl (by rw [idle]; rfl)
      case isFalse => exact sound.setReservation found rfl rfl rfl rfl

theorem Conserved.setUpgrade (conserved : units.Conserved) {handle : Nat}
    {old new : RelayConnectionUpgrade} {ledger : RelayConnectionLedger}
    (found : units.upgrades[handle]? = some old)
    (physical : ledger.physicalConnections + (if isPhysical old then 1 else 0) =
      units.ledger.physicalConnections + (if isPhysical new then 1 else 0))
    (inFlight : ledger.inFlightConnections + (if isInFlight old then 1 else 0) =
      units.ledger.inFlightConnections + (if isInFlight new then 1 else 0))
    (reserved : ledger.reservedConnectionUnits = units.ledger.reservedConnectionUnits) :
    Conserved { units with ledger := ledger, upgrades := units.upgrades.set handle new } where
  physical := by
    have counted := countP_set_add found isPhysical new
    have before := conserved.physical
    show ledger.physicalConnections = (units.upgrades.set handle new).countP isPhysical
    cases was : isPhysical old <;> cases becomes : isPhysical new <;>
      simp only [was, becomes, if_true, Bool.false_eq_true, if_false] at counted physical <;> omega
  inFlight := by
    have counted := countP_set_add found isInFlight new
    have before := conserved.inFlight
    show ledger.inFlightConnections = (units.upgrades.set handle new).countP isInFlight
    cases was : isInFlight old <;> cases becomes : isInFlight new <;>
      simp only [was, becomes, if_true, Bool.false_eq_true, if_false] at counted inFlight <;> omega
  reserved := reserved.trans conserved.reserved

theorem sound_promote (sound : units.Sound capacity) (handle : Nat) :
    (units.promote handle).1.Sound capacity := by
  unfold promote
  split
  case h_1 => exact sound
  case h_2 upgrade found =>
    split
    case isTrue => exact sound
    case isFalse flying =>
      rw [not_not] at flying
      refine ⟨sound.conserved.setUpgrade found ?_ ?_ rfl, sound.within.of_eq ?_ ?_,
        sound.hostData.set found .physical rfl⟩
      · simp [RelayConnectionLedger.promoteUpgrade, isPhysical, flying]
      · simp [RelayConnectionLedger.promoteUpgrade, isInFlight, flying]
      · simp only [RelayConnectionLedger.promoteUpgrade,
          RelayConnectionLedger.enforcedConnectionUnits, RelayConnectionLedger.advanceWatermark]
        omega
      · have same : holdsReserve { upgrade with state := .physical } = holdsReserve upgrade := by
          simp [holdsReserve, flying]
        have held := countP_set_add found holdsReserve { upgrade with state := .physical }
        rw [same] at held
        exact Nat.add_right_cancel held

theorem isReserved_consume (reservation : HostDataReservation) :
    isReserved reservation.consume.1 = isReserved reservation := by
  unfold HostDataReservation.consume
  split
  case isTrue => rfl
  case isFalse claimed =>
    rw [not_not] at claimed
    simp [isReserved, claimed]

theorem sound_commitHostData (sound : units.Sound capacity) (handle : Nat) :
    (units.commitHostData handle).1.Sound capacity := by
  unfold commitHostData
  simp only
  split
  case h_1 => exact sound
  case h_2 =>
    split
    case h_1 => exact sound
    case h_2 reservation found =>
      exact sound.setReservation found rfl rfl rfl (isReserved_consume reservation)

/-- Giving a reservation back takes one unit, which the upgrade has just let go. -/
theorem sound_restore {released : ConnectionUnits} (conserved : released.Conserved)
    (hostData : released.HostDataNormal) (within : units.Within capacity)
    (total : released.ledger.enforcedConnectionUnits + 1 = units.ledger.enforcedConnectionUnits)
    (normal : released.rebindUnits = units.rebindUnits) (handle : Nat) :
    (released.restore handle).Sound capacity := by
  have sound : released.Sound capacity :=
    ⟨conserved, within.of_le (by omega) (by omega), hostData⟩
  unfold restore
  split
  case h_1 => exact sound
  case h_2 reservation found =>
    split
    case isTrue => exact sound
    case isFalse claimed =>
      rw [not_not] at claimed
      have was : isReserved reservation = false := by simp [isReserved, claimed]
      split
      case h_1 => exact sound.setReservation found rfl rfl rfl was.symm
      case h_2 ledger restored =>
        unfold RelayConnectionLedger.restoreReserved at restored
        split at restored
        case h_1 => cases restored
        case h_2 connectionId _ =>
          simp only [Option.ite_none_left_eq_some, Option.some.injEq] at restored
          obtain ⟨-, rfl⟩ := restored
          refine ⟨conserved.setReservation found rfl rfl ?_, within.of_le ?_ ?_, hostData⟩
          · rw [was]
            simp [isReserved]
          all_goals
            simp only [RelayConnectionLedger.enforcedConnectionUnits, rebindUnits,
              RelayConnectionLedger.advanceWatermark] at total normal ⊢
            omega

theorem conserved_released (conserved : units.Conserved) {handle : Nat}
    {upgrade : RelayConnectionUpgrade} (found : units.upgrades[handle]? = some upgrade)
    (live : upgrade.state ≠ .released) :
    Conserved { units with
      ledger := if upgrade.state = .inFlight then units.ledger.releaseUpgrade
        else units.ledger.releasePhysical
      upgrades := units.upgrades.set handle { upgrade with state := .released } } := by
  refine conserved.setUpgrade found ?_ ?_ ?_ <;> cases state : upgrade.state <;>
    simp_all [RelayConnectionLedger.releaseUpgrade, RelayConnectionLedger.releasePhysical,
      RelayConnectionLedger.advanceWatermark, isInFlight, isPhysical]

theorem enforced_released (ledger : RelayConnectionLedger) (state : UpgradeState) :
    (if state = .inFlight then ledger.releaseUpgrade
      else ledger.releasePhysical).enforcedConnectionUnits + 1 =
      ledger.enforcedConnectionUnits := by
  split <;>
    simp only [RelayConnectionLedger.releaseUpgrade, RelayConnectionLedger.releasePhysical,
      RelayConnectionLedger.advanceWatermark, RelayConnectionLedger.enforcedConnectionUnits] <;>
    omega

theorem sound_releaseUpgrade (sound : units.Sound capacity) (handle : Nat) :
    (units.releaseUpgrade handle).1.Sound capacity := by
  unfold releaseUpgrade
  split
  case h_1 => exact sound
  case h_2 upgrade found =>
    split
    case isTrue => exact sound
    case isFalse live =>
      have conserved := conserved_released sound.conserved found live
      have total := enforced_released units.ledger upgrade.state
      have held := countP_set_add found holdsReserve { upgrade with state := .released }
      have gone : holdsReserve { upgrade with state := .released } = false := by
        simp [holdsReserve]
      rw [gone] at held
      simp only [Bool.false_eq_true, if_false, Nat.add_zero] at held
      simp only
      split
      case h_1 =>
        refine ⟨conserved, sound.within.of_le ?_ ?_, sound.hostData.set found .released rfl⟩
        · dsimp only
          omega
        · dsimp only [rebindUnits]
          split at held <;> omega
      case h_2 reserved takes =>
        have normal : holdsReserve upgrade = false := by
          have plain := sound.hostData upgrade (List.mem_of_getElem? found) (by simp [takes])
          simp [holdsReserve, plain]
        rw [normal] at held
        exact sound_restore conserved (sound.hostData.set found .released rfl) sound.within total
          held reserved

theorem sound_releaseBooking (sound : units.Sound capacity) (handle : Nat) :
    (units.releaseBooking handle).1.Sound capacity := by
  unfold releaseBooking
  split
  case h_2 => exact sound
  case h_1 found =>
    have counted := countP_set_add found not true
    refine ⟨⟨sound.conserved.physical, sound.conserved.inFlight, ?_⟩, sound.within.of_le ?_ ?_,
      sound.hostData⟩
    · have reserved := sound.conserved.reserved
      simp only [Bool.not_false, Bool.not_true, if_true, Bool.false_eq_true, if_false]
        at counted reserved ⊢
      omega
    all_goals
      simp only [RelayConnectionLedger.enforcedConnectionUnits, rebindUnits,
        RelayConnectionLedger.advanceWatermark]
      omega

theorem sound_call (sound : units.Sound capacity) (next : UnitCall) :
    (units.call capacity next).1.Sound capacity := by
  cases next with
  | tryReserveControl rebind => exact sound_tryReserveControl sound rebind
  | tryReservePhone => exact sound_tryReservePhone sound
  | bind hostData connectionId => exact sound_bind sound hostData connectionId
  | tryReserveHostData connectionId => exact sound_tryReserveHostData sound connectionId
  | tryReserveBooking limit => exact sound_tryReserveBooking sound limit
  | promote upgrade => exact sound_promote sound upgrade
  | commitHostData upgrade => exact sound_commitHostData sound upgrade
  | release handle =>
    cases handle with
    | upgrade handle => exact sound_releaseUpgrade sound handle
    | hostData handle => exact sound_releaseReservation sound handle
    | booking handle => exact sound_releaseBooking sound handle
  | snapshot =>
    exact ⟨⟨sound.conserved.physical, sound.conserved.inFlight, sound.conserved.reserved⟩,
      sound.within.of_eq rfl rfl, sound.hostData⟩

theorem sound_after (capacity : LedgerCapacity) (calls : List UnitCall) :
    (after capacity calls).Sound capacity :=
  foldl_preserves (sound_start capacity) (fun _ next sound => sound_call sound next) calls

end OxeeUI.Relay.ConnectionUnits
