import OxeeUI.Library.Run
import OxeeUI.Relay.CellReserveBook

/-!
# The units of a reserve book

The units the book holds are those of its bookings that were not handed off.  Every call keeps
this, as it gives, passes on or releases the unit of each booking it makes, changes or ends.
-/

namespace OxeeUI.Relay

open OxeeUI.Library

namespace UnitPool

variable {pool : UnitPool} {unit other : Nat}

def Holds (pool : UnitPool) (unit : Nat) : Prop := pool.released[unit]? = some false

structure Recorded (pool : UnitPool) : Prop where
  once : pool.releases.Nodup
  released : ∀ unit, unit ∈ pool.releases ↔ pool.released[unit]? = some true

theorem holds_release : (pool.release unit).Holds other ↔ pool.Holds other ∧ other ≠ unit := by
  unfold Holds release
  split
  case isTrue held =>
    by_cases same : other = unit
    · subst same
      have bound := (List.getElem?_eq_some_iff.mp held).1
      simp [List.getElem?_set_self bound]
    · simp [List.getElem?_set_ne (Ne.symm same), same]
  case isFalse idle =>
    refine ⟨fun holds => ⟨holds, ?_⟩, And.left⟩
    rintro rfl
    exact idle holds

theorem holds_releaseAll {units : List Nat} :
    (pool.releaseAll units).Holds other ↔ pool.Holds other ∧ other ∉ units := by
  induction units generalizing pool with
  | nil => simp [releaseAll]
  | cons first rest ih =>
    rw [releaseAll, List.foldl_cons]
    rw [show rest.foldl release (pool.release first) = (pool.release first).releaseAll rest from
      rfl, ih, holds_release, List.mem_cons, not_or, and_assoc]

theorem holds_give :
    pool.give.Holds other ↔ pool.Holds other ∨ other = pool.released.length := by
  unfold Holds give
  rcases Nat.lt_trichotomy other pool.released.length with below | rfl | above
  · rw [List.getElem?_append_left below]
    simp [Nat.ne_of_lt below]
  · simp
  · rw [List.getElem?_eq_none (by simp; omega), List.getElem?_eq_none (by omega)]
    simp [Nat.ne_of_gt above]

theorem length_release : (pool.release unit).released.length = pool.released.length := by
  unfold release
  split
  · exact List.length_set ..
  · rfl

theorem length_releaseAll {units : List Nat} :
    (pool.releaseAll units).released.length = pool.released.length :=
  foldl_frame (fun pool : UnitPool => pool.released.length) (fun _ _ => length_release) pool units

theorem Recorded.release (recorded : pool.Recorded) : (pool.release unit).Recorded := by
  unfold UnitPool.release
  split
  case isFalse => exact recorded
  case isTrue held =>
    have fresh : unit ∉ pool.releases := by
      rw [recorded.released, held]
      simp
    refine ⟨?_, fun other => ?_⟩
    · refine List.nodup_append.mpr ⟨recorded.once, List.nodup_singleton _, ?_⟩
      intro first member second last same
      rw [List.mem_singleton.mp last] at same
      exact fresh (same ▸ member)
    · rw [List.mem_append, recorded.released, List.mem_singleton]
      by_cases same : other = unit
      · subst same
        simp [List.getElem?_set_self (List.getElem?_eq_some_iff.mp held).1]
      · simp [List.getElem?_set_ne (Ne.symm same), same]

theorem Recorded.releaseAll (recorded : pool.Recorded) (units : List Nat) :
    (pool.releaseAll units).Recorded :=
  foldl_preserves recorded (fun _ _ recorded => recorded.release) units

theorem Recorded.give (recorded : pool.Recorded) : pool.give.Recorded := by
  refine ⟨recorded.once, fun other => ?_⟩
  show other ∈ pool.releases ↔ (pool.released ++ [false])[other]? = some true
  rw [recorded.released]
  rcases Nat.lt_trichotomy other pool.released.length with below | rfl | above
  · rw [List.getElem?_append_left below]
  · simp
  · rw [List.getElem?_eq_none (Nat.le_of_lt above),
      List.getElem?_eq_none (by rw [List.length_append]; exact above)]

end UnitPool

namespace CellReserveBook

variable {book next : CellReserveBook} {burst : ℚ} {key : String} {booking : HeldBooking}

/-- The units the book holds are those of its bookings that were not handed off, one each. -/
structure HoldsUnits (book : CellReserveBook) : Prop where
  recorded : book.pool.Recorded
  given : ∀ key booking, book.bookings.get? key = some booking →
    booking.unit < book.pool.released.length
  apart : ∀ first second booking booking', book.bookings.get? first = some booking →
    book.bookings.get? second = some booking' → booking.unit = booking'.unit → first = second
  held : ∀ unit, book.pool.Holds unit ↔
    ∃ key booking, book.bookings.get? key = some booking ∧ booking.unit = unit ∧
      booking.handedOff = false

/-! ## Calls that end bookings -/

theorem get?_sweep (now : ℚ) (key : String) :
    (book.sweep now).bookings.get? key = (book.bookings.get? key).filter (isLive now) :=
  JsMap.get?_filter _ _ key

theorem get?_sweep_eq_some {now : ℚ} :
    (book.sweep now).bookings.get? key = some booking ↔
      book.bookings.get? key = some booking ∧ isLive now booking = true := by
  rw [get?_sweep, Option.filter_eq_some_iff]

theorem HoldsUnits.drop (holds : book.HoldsUnits) {units : List Nat}
    (pool : next.pool = book.pool.releaseAll units)
    (kept : ∀ key booking, next.bookings.get? key = some booking →
      book.bookings.get? key = some booking ∧ booking.unit ∉ units)
    (gone : ∀ key booking, book.bookings.get? key = some booking → booking.unit ∉ units →
      next.bookings.get? key = some booking) : next.HoldsUnits where
  recorded := pool ▸ holds.recorded.releaseAll units
  given := by
    intro key booking found
    rw [pool, UnitPool.length_releaseAll]
    exact holds.given key booking (kept key booking found).1
  apart := fun first second booking booking' found found' =>
    holds.apart first second booking booking' (kept _ _ found).1 (kept _ _ found').1
  held := by
    intro unit
    rw [pool, UnitPool.holds_releaseAll, holds.held]
    constructor
    · rintro ⟨⟨key, booking, found, rfl, live⟩, stays⟩
      exact ⟨key, booking, gone key booking found stays, rfl, live⟩
    · rintro ⟨key, booking, found, rfl, live⟩
      obtain ⟨stored, stays⟩ := kept key booking found
      exact ⟨⟨key, booking, stored, rfl, live⟩, stays⟩

theorem holdsUnits_sweep (holds : book.HoldsUnits) (now : ℚ) : (book.sweep now).HoldsUnits := by
  have expired : ∀ key booking, book.bookings.get? key = some booking →
      (booking.unit ∈ (book.bookings.values.filter fun booking => !isLive now booking).map
        HeldBooking.unit ↔ isLive now booking = false) := by
    intro key booking found
    rw [List.mem_map]
    constructor
    · rintro ⟨other, member, same⟩
      obtain ⟨stored, ended⟩ := List.mem_filter.mp member
      obtain ⟨key', found'⟩ := JsMap.mem_values_iff.mp stored
      obtain rfl := holds.apart key' key other booking found' found same
      obtain rfl := Option.some.inj (found.symm.trans found')
      simpa using ended
    · intro ended
      exact ⟨booking, List.mem_filter.mpr ⟨JsMap.mem_values_iff.mpr ⟨key, found⟩, by simp [ended]⟩,
        rfl⟩
  refine holds.drop rfl ?_ ?_
  · intro key booking found
    obtain ⟨stored, live⟩ := get?_sweep_eq_some.mp found
    refine ⟨stored, fun ended => ?_⟩
    rw [(expired key booking stored).mp ended] at live
    cases live
  · intro key booking found stays
    refine get?_sweep_eq_some.mpr ⟨found, ?_⟩
    rw [expired key booking found] at stays
    simpa using stays

theorem holdsUnits_clear (holds : book.HoldsUnits) : book.clear.HoldsUnits := by
  refine holds.drop rfl ?_ ?_
  · intro key booking found
    cases found
  · intro key booking found stays
    exact absurd (List.mem_map_of_mem (JsMap.mem_values_iff.mpr ⟨key, found⟩)) stays

theorem releaseAll_singleton (pool : UnitPool) (unit : Nat) :
    pool.releaseAll [unit] = pool.release unit := rfl

theorem HoldsUnits.delete (holds : book.HoldsUnits)
    (found : book.bookings.get? key = some booking) :
    HoldsUnits { book with
      bookings := book.bookings.delete key
      pool := book.pool.release booking.unit } := by
  refine holds.drop (releaseAll_singleton ..).symm ?_ ?_
  · intro other booking' stays
    rw [JsMap.get?_delete] at stays
    by_cases same : other = key
    · rw [if_pos same] at stays
      cases stays
    · rw [if_neg same] at stays
      refine ⟨stays, fun same' => same ?_⟩
      exact holds.apart other key booking' booking stays found (List.mem_singleton.mp same')
  · intro other booking' stored stays
    rw [JsMap.get?_delete, if_neg]
    · exact stored
    · rintro rfl
      obtain rfl := Option.some.inj (found.symm.trans stored)
      exact stays (List.mem_singleton_self _)

theorem holdsUnits_take (holds : book.HoldsUnits) (userId relayHostId : String) (epoch : Int)
    (now : ℚ) : (book.take userId relayHostId epoch now).1.HoldsUnits := by
  unfold take
  simp only
  split
  case h_1 => exact holds
  case h_2 booking found =>
    split
    case isTrue => exact holds
    case isFalse => exact holds.delete found

/-! ## Calls that make or change a booking -/

theorem HoldsUnits.holds_unit (holds : book.HoldsUnits)
    (found : book.bookings.get? key = some booking) :
    book.pool.Holds booking.unit ↔ booking.handedOff = false := by
  rw [holds.held]
  constructor
  · rintro ⟨other, booking', stored, same, live⟩
    obtain rfl := holds.apart other key booking' booking stored found same
    rwa [Option.some.inj (found.symm.trans stored)]
  · exact fun live => ⟨key, booking, found, rfl, live⟩

/-- A booking takes the place of its host's last, or is its host's first. -/
theorem HoldsUnits.put (holds : book.HoldsUnits) {new : HeldBooking}
    (bookings : next.bookings = book.bookings.set key new) (recorded : next.pool.Recorded)
    (longer : book.pool.released.length ≤ next.pool.released.length)
    (given : new.unit < next.pool.released.length)
    (own : ∀ other booking', book.bookings.get? other = some booking' →
      booking'.unit = new.unit → other = key)
    (passed : ∀ old, book.bookings.get? key = some old → old.handedOff = false →
      old.unit = new.unit)
    (unit : next.pool.Holds new.unit ↔ new.handedOff = false)
    (others : ∀ unit, unit ≠ new.unit → (next.pool.Holds unit ↔ book.pool.Holds unit)) :
    next.HoldsUnits where
  recorded := recorded
  given := by
    intro other booking' found
    rw [bookings, JsMap.get?_set] at found
    split at found
    case isTrue => exact Option.some.inj found ▸ given
    case isFalse => exact Nat.lt_of_lt_of_le (holds.given other booking' found) longer
  apart := by
    intro first second booking' booking'' found found' same
    rw [bookings, JsMap.get?_set] at found found'
    split at found <;> split at found'
    case isTrue.isTrue here there => exact here.trans there.symm
    case isTrue.isFalse here there =>
      obtain rfl := Option.some.inj found
      exact here.trans (own second booking'' found' same.symm).symm
    case isFalse.isTrue here there =>
      obtain rfl := Option.some.inj found'
      exact (own first booking' found same).trans there.symm
    case isFalse.isFalse => exact holds.apart first second booking' booking'' found found' same
  held := by
    intro held
    by_cases same : held = new.unit
    · rw [same, unit]
      constructor
      · exact fun live => ⟨key, new, by rw [bookings, JsMap.get?_set_self], rfl, live⟩
      · rintro ⟨other, booking', found, same', live⟩
        rw [bookings, JsMap.get?_set] at found
        split at found
        case isTrue => rwa [Option.some.inj found]
        case isFalse elsewhere => exact absurd (own other booking' found same') elsewhere
    · rw [others held same, holds.held]
      constructor
      · rintro ⟨other, booking', found, rfl, live⟩
        refine ⟨other, booking', ?_, rfl, live⟩
        rw [bookings, JsMap.get?_set_of_ne _ _ ?_]
        · exact found
        · rintro rfl
          exact same (passed booking' found live)
      · rintro ⟨other, booking', found, rfl, live⟩
        rw [bookings, JsMap.get?_set] at found
        split at found
        case isTrue =>
          obtain rfl := Option.some.inj found
          exact absurd rfl same
        case isFalse => exact ⟨other, booking', found, rfl, live⟩

theorem HoldsUnits.keep (holds : book.HoldsUnits)
    (found : book.bookings.get? key = some booking) {new : HeldBooking}
    (bookings : next.bookings = book.bookings.set key new) (pool : next.pool = book.pool)
    (unit : new.unit = booking.unit) (handedOff : new.handedOff = booking.handedOff) :
    next.HoldsUnits := by
  refine holds.put bookings (pool ▸ holds.recorded) (by rw [pool]) ?_ ?_ ?_ ?_ ?_
  · rw [unit, pool]
    exact holds.given key booking found
  · exact fun other booking' stored same =>
      holds.apart other key booking' booking stored found (same.trans unit)
  · intro old stored _
    rw [unit, Option.some.inj (found.symm.trans stored)]
  · rw [unit, handedOff, pool]
    exact holds.holds_unit found
  · intro other _
    rw [pool]

theorem holdsUnits_handOff (holds : book.HoldsUnits) (userId relayHostId : String) (now : ℚ) :
    (book.handOff userId relayHostId now).HoldsUnits := by
  unfold handOff
  simp only
  split
  case h_1 => exact holds
  case h_2 booking found =>
    split
    case isTrue => exact holds
    case isFalse =>
      refine holds.put rfl holds.recorded.release ?_ ?_ ?_ ?_ ?_ ?_
      · rw [UnitPool.length_release]
      · rw [UnitPool.length_release]
        exact holds.given _ booking found
      · exact fun other booking' stored same => holds.apart other _ booking' booking stored found same
      · intro old stored _
        rw [Option.some.inj (found.symm.trans stored)]
      · rw [UnitPool.holds_release]
        simp
      · intro unit other
        rw [UnitPool.holds_release]
        exact ⟨And.left, fun holds => ⟨holds, other⟩⟩

theorem heldUnit_eq_some {booked : Option HeldBooking} {unit : Nat} :
    heldUnit booked = some unit ↔
      ∃ booking, booked = some booking ∧ booking.handedOff = false ∧ booking.unit = unit := by
  unfold heldUnit
  cases booked with
  | none => simp
  | some booking => cases handed : booking.handedOff <;> simp [handed]

/-- The bookings and their units are as they were. -/
structure SameBookings (book next : CellReserveBook) : Prop where
  bookings : next.bookings = book.bookings
  pool : next.pool = book.pool
  made : next.made = book.made

theorem SameBookings.refl (book : CellReserveBook) : book.SameBookings book := ⟨rfl, rfl, rfl⟩

inductive ReserveEffect (burst : ℚ) (swept : CellReserveBook) (directorId : String)
    (item : ReserveItem) (dryRun : Bool) (moment : ReserveMoment) : CellReserveBook → Prop
  | same : ReserveEffect burst swept directorId item dryRun moment swept
  | refilled : ReserveEffect burst swept directorId item dryRun moment
      { swept with intake := swept.intakeFor burst item moment }
  | extended {booking : HeldBooking} : dryRun = false → item.sticky = true →
      swept.bookings.get? (hostKey item.userId item.relayHostId) = some booking →
      ReserveEffect burst swept directorId item dryRun moment
        (swept.extendBooking item booking moment.now)
  | booked : dryRun = false →
      (∀ booking, swept.bookings.get? (hostKey item.userId item.relayHostId) = some booking →
        booking.epoch ≤ item.epoch) →
      ReserveEffect burst swept directorId item dryRun moment
        (swept.withBooking burst directorId item moment)

theorem bookItem_effect (directorId : String) (item : ReserveItem) (dryRun : Bool)
    (moment : ReserveMoment)
    (known : ∀ booking, book.bookings.get? (hostKey item.userId item.relayHostId) = some booking →
      booking.epoch ≤ item.epoch) :
    ReserveEffect burst book directorId item dryRun moment
      (book.bookItem burst directorId item dryRun moment).1 := by
  unfold bookItem
  simp only
  split
  case isTrue => exact .same
  case isFalse =>
    split
    case isTrue => exact .refilled
    case isFalse =>
      cases dryRun with
      | true => exact .refilled
      | false =>
        simp only [Bool.false_eq_true, if_false]
        split
        case isTrue => exact .refilled
        case isFalse => exact .booked rfl known

theorem epoch_le_knownEpoch (seated : Option Int) (booking : HeldBooking) :
    booking.epoch ≤ knownEpoch seated (some booking) :=
  le_max_right ..

theorem seated_le_knownEpoch (seated : Int) (booked : Option HeldBooking) :
    seated ≤ knownEpoch (some seated) booked :=
  le_max_left ..

theorem of_stickyAnswer_booked {item : ReserveItem} {seated : Option Int}
    {booked : Option HeldBooking} (answer : stickyAnswer item seated booked = .booked booking) :
    booked = some booking := by
  unfold stickyAnswer at answer
  split at answer
  case isTrue => cases answer
  case isFalse =>
    split at answer
    case isTrue => cases answer
    case isFalse =>
      split at answer
      case h_2 => cases answer
      case h_1 found =>
        split at answer
        case isTrue =>
          cases answer
          rfl
        case isFalse => cases answer

theorem of_stickyAnswer_unknown {item : ReserveItem} {seated : Option Int}
    (answer : stickyAnswer item seated (some booking) = .unknown) :
    booking.epoch ≤ item.epoch := by
  unfold stickyAnswer at answer
  split at answer
  case isTrue => cases answer
  case isFalse older => exact (epoch_le_knownEpoch seated booking).trans (not_lt.mp older)

theorem HoldsUnits.congr (holds : book.HoldsUnits) (same : book.SameBookings next) :
    next.HoldsUnits where
  recorded := same.pool ▸ holds.recorded
  given := by
    rw [same.bookings, same.pool]
    exact holds.given
  apart := by
    rw [same.bookings]
    exact holds.apart
  held := by
    rw [same.bookings, same.pool]
    exact holds.held

theorem holdsUnits_withBooking (holds : book.HoldsUnits) (directorId : String)
    (item : ReserveItem) (moment : ReserveMoment) :
    (book.withBooking burst directorId item moment).HoldsUnits := by
  cases held : heldUnit (book.bookings.get? (hostKey item.userId item.relayHostId)) with
  | some unit =>
    obtain ⟨booking, found, live, rfl⟩ := heldUnit_eq_some.mp held
    refine holds.keep found rfl ?_ ?_ live.symm
    · simp [withBooking, held]
    · simp [newBooking, held]
  | none =>
    have pool : (book.withBooking burst directorId item moment).pool = book.pool.give := by
      simp [withBooking, held]
    have unit : (book.newBooking directorId item moment.now).unit = book.pool.released.length := by
      simp [newBooking, held]
    refine holds.put rfl (pool ▸ holds.recorded.give) ?_ ?_ ?_ ?_ ?_ ?_
    · rw [pool]
      simp [UnitPool.give]
    · rw [pool, unit]
      simp [UnitPool.give]
    · intro other booking' stored same
      rw [unit] at same
      exact absurd same (Nat.ne_of_lt (holds.given other booking' stored))
    · intro old stored live
      rw [heldUnit_eq_some.mpr ⟨old, stored, live, rfl⟩] at held
      cases held
    · rw [pool, unit]
      exact ⟨fun _ => rfl, fun _ => UnitPool.holds_give.mpr (Or.inr rfl)⟩
    · intro given other
      rw [unit] at other
      rw [pool, UnitPool.holds_give]
      exact ⟨fun holds => holds.resolve_right other, Or.inl⟩

theorem reserve_effect (book : CellReserveBook) (directorId : String) (item : ReserveItem)
    (context : ReserveContext) (dryRun : Bool) (moment : ReserveMoment) :
    ReserveEffect burst (book.sweep moment.now) directorId item dryRun moment
      (book.reserve burst directorId item context dryRun moment).1 := by
  unfold reserve
  simp only
  split
  case isTrue => exact .same
  case isFalse =>
    split
    case isTrue => exact .same
    case isFalse =>
      split
      case isTrue sticky =>
        split
        case h_1 => exact .same
        case h_2 => exact .same
        case h_3 booking answer =>
          cases dryRun with
          | true => exact .same
          | false => exact .extended rfl sticky (of_stickyAnswer_booked answer)
        case h_4 answer =>
          refine bookItem_effect directorId item dryRun moment fun booking found => ?_
          rw [found] at answer
          exact of_stickyAnswer_unknown answer
      case isFalse =>
        split
        case isTrue => exact .same
        case isFalse newer =>
          refine bookItem_effect directorId item dryRun moment fun booking found => ?_
          rw [found, not_le] at newer
          exact ((epoch_le_knownEpoch _ booking).trans_lt newer).le

theorem ReserveEffect.holdsUnits {directorId : String} {item : ReserveItem} {dryRun : Bool}
    {moment : ReserveMoment} (holds : book.HoldsUnits)
    (effect : ReserveEffect burst book directorId item dryRun moment next) : next.HoldsUnits := by
  cases effect with
  | same => exact holds
  | refilled => exact holds.congr ⟨rfl, rfl, rfl⟩
  | extended _ _ found => exact holds.keep found rfl rfl rfl rfl
  | booked => exact holdsUnits_withBooking holds directorId item moment

end CellReserveBook

end OxeeUI.Relay
