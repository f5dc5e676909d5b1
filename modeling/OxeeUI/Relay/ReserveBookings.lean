import OxeeUI.Relay.BookingUnits

/-!
# What a reserve book promises

Bookings are not oversold, a host's epoch does not fall, a booking admits once, and a dry run
answers as the run would.
-/

namespace OxeeUI.Relay

open OxeeUI.Library

namespace CellReserveBook

variable {book next : CellReserveBook} {burst : ℚ} {key : String} {booking : HeldBooking}

/-! ## Which bookings there are -/

/-- The bookings in the book are of different serials, all given before. -/
structure Serialised (book : CellReserveBook) : Prop where
  earlier : ∀ key booking, book.bookings.get? key = some booking → booking.serial < book.made
  apart : ∀ first second booking booking', book.bookings.get? first = some booking →
    book.bookings.get? second = some booking' → booking.serial = booking'.serial → first = second

def Within (book next : CellReserveBook) : Prop :=
  ∀ key booking, next.bookings.get? key = some booking →
    ∃ booking', book.bookings.get? key = some booking' ∧ booking'.serial = booking.serial

theorem Serialised.within (serialised : book.Serialised) (within : book.Within next)
    (made : next.made = book.made) : next.Serialised where
  earlier := by
    intro key booking found
    obtain ⟨booking', stored, same⟩ := within key booking found
    rw [made, ← same]
    exact serialised.earlier key booking' stored
  apart := by
    intro first second booking booking' found found' same
    obtain ⟨early, stored, sameEarly⟩ := within first booking found
    obtain ⟨late, stored', sameLate⟩ := within second booking' found'
    exact serialised.apart first second early late stored stored'
      (sameEarly.trans (same.trans sameLate.symm))

theorem Within.refl (book : CellReserveBook) : book.Within book :=
  fun _ booking found => ⟨booking, found, rfl⟩

theorem within_sweep (now : ℚ) : book.Within (book.sweep now) :=
  fun _ booking found => ⟨booking, (get?_sweep_eq_some.mp found).1, rfl⟩

theorem within_set (found : book.bookings.get? key = some booking) {new : HeldBooking}
    (bookings : next.bookings = book.bookings.set key new)
    (serial : new.serial = booking.serial) : book.Within next := by
  intro other booking' found'
  rw [bookings, JsMap.get?_set] at found'
  split at found'
  case isTrue same =>
    rw [same, ← Option.some.inj found']
    exact ⟨booking, found, serial.symm⟩
  case isFalse => exact ⟨booking', found', rfl⟩

theorem within_handOff (book : CellReserveBook) (userId relayHostId : String) (now : ℚ) :
    book.Within (book.handOff userId relayHostId now) ∧
      (book.handOff userId relayHostId now).made = book.made := by
  unfold handOff
  simp only
  split
  case h_1 => exact ⟨.refl book, rfl⟩
  case h_2 booking found =>
    split
    case isTrue => exact ⟨.refl book, rfl⟩
    case isFalse => exact ⟨within_set found rfl rfl, rfl⟩

theorem serialised_withBooking (serialised : book.Serialised) (directorId : String)
    (item : ReserveItem) (moment : ReserveMoment) :
    (book.withBooking burst directorId item moment).Serialised where
  earlier := by
    intro key booking found
    rw [withBooking, JsMap.get?_set] at found
    split at found
    case isTrue => exact Option.some.inj found ▸ Nat.lt_succ_self _
    case isFalse => exact Nat.lt_succ_of_lt (serialised.earlier key booking found)
  apart := by
    intro first second booking booking' found found' same
    rw [withBooking, JsMap.get?_set] at found found'
    split at found <;> split at found'
    case isTrue.isTrue here there => exact here.trans there.symm
    case isTrue.isFalse =>
      obtain rfl := Option.some.inj found
      exact absurd same.symm (Nat.ne_of_lt (serialised.earlier second booking' found'))
    case isFalse.isTrue =>
      obtain rfl := Option.some.inj found'
      exact absurd same (Nat.ne_of_lt (serialised.earlier first booking found))
    case isFalse.isFalse => exact serialised.apart first second booking booking' found found' same

theorem ReserveEffect.serialised {directorId : String} {item : ReserveItem} {dryRun : Bool}
    {moment : ReserveMoment} (serialised : book.Serialised)
    (effect : ReserveEffect burst book directorId item dryRun moment next) : next.Serialised := by
  cases effect with
  | same => exact serialised
  | refilled => exact serialised.within (.refl book) rfl
  | extended _ _ found => exact serialised.within (within_set found rfl rfl) rfl
  | booked => exact serialised_withBooking serialised directorId item moment

theorem ReserveEffect.within {directorId : String} {item : ReserveItem} {dryRun : Bool}
    {moment : ReserveMoment}
    (effect : ReserveEffect burst book directorId item dryRun moment next) (key : String)
    (booking : HeldBooking) (found : next.bookings.get? key = some booking) :
    booking.serial = book.made ∨
      ∃ booking', book.bookings.get? key = some booking' ∧ booking'.serial = booking.serial := by
  cases effect with
  | same => exact Or.inr ⟨booking, found, rfl⟩
  | refilled => exact Or.inr ⟨booking, found, rfl⟩
  | extended _ _ stored =>
    have within : book.Within (book.extendBooking item _ moment.now) := within_set stored rfl rfl
    exact Or.inr (within key booking found)
  | booked =>
    rw [withBooking, JsMap.get?_set] at found
    split at found
    case isTrue => exact Or.inl (Option.some.inj found ▸ rfl)
    case isFalse => exact Or.inr ⟨booking, found, rfl⟩

theorem ReserveEffect.made_le {directorId : String} {item : ReserveItem} {dryRun : Bool}
    {moment : ReserveMoment}
    (effect : ReserveEffect burst book directorId item dryRun moment next) :
    book.made ≤ next.made := by
  cases effect with
  | same => exact Nat.le_refl _
  | refilled => exact Nat.le_refl _
  | extended => exact Nat.le_refl _
  | booked => exact Nat.le_succ _

/-! ## Epochs -/

theorem ReserveEffect.epoch_le {directorId : String} {item : ReserveItem} {dryRun : Bool}
    {moment : ReserveMoment}
    (effect : ReserveEffect burst book directorId item dryRun moment next) {key : String}
    {booking booking' : HeldBooking} (found : book.bookings.get? key = some booking)
    (found' : next.bookings.get? key = some booking') : booking.epoch ≤ booking'.epoch := by
  cases effect with
  | same => rw [Option.some.inj (found.symm.trans found')]
  | refilled => rw [Option.some.inj (found.symm.trans found')]
  | extended _ _ stored =>
    rw [extendBooking, JsMap.get?_set] at found'
    split at found'
    case isTrue same =>
      subst same
      obtain rfl := Option.some.inj (found.symm.trans stored)
      rw [← Option.some.inj found']
    case isFalse => rw [Option.some.inj (found.symm.trans found')]
  | booked _ older =>
    rw [withBooking, JsMap.get?_set] at found'
    split at found'
    case isTrue same =>
      subst same
      rw [← Option.some.inj found']
      exact older booking found
    case isFalse => rw [Option.some.inj (found.symm.trans found')]

/-- An item that is not sticky is answered `ok` only above every epoch known of its host, and is
booked unless the run is dry. -/
theorem reserve_ok {directorId : String} {item : ReserveItem} {context : ReserveContext}
    {dryRun : Bool} {moment : ReserveMoment} (fresh : item.sticky = false)
    (ok : (book.reserve burst directorId item context dryRun moment).2 = .ok) :
    knownEpoch (context.seatedEpoch item.userId item.relayHostId)
        ((book.sweep moment.now).bookings.get? (hostKey item.userId item.relayHostId)) <
      item.epoch ∧
    (dryRun = false →
      (book.reserve burst directorId item context dryRun moment).1 =
        (book.sweep moment.now).withBooking burst directorId item moment) := by
  unfold reserve at ok ⊢
  simp only at ok ⊢
  split at ok
  case isTrue => cases ok
  case isFalse mode =>
    rw [if_neg mode]
    split at ok
    case isTrue => cases ok
    case isFalse serving =>
      rw [if_neg serving]
      rw [if_neg (by simp [fresh])] at ok ⊢
      split at ok
      case isTrue => cases ok
      case isFalse newer =>
        rw [if_neg newer]
        refine ⟨not_le.mp newer, ?_⟩
        rintro rfl
        unfold bookItem at ok ⊢
        simp only at ok ⊢
        split at ok
        case isTrue => cases ok
        case isFalse room =>
          rw [if_neg room]
          split at ok
          case isTrue => cases ok
          case isFalse tokens =>
            rw [if_neg tokens]
            simp only [Bool.false_eq_true, if_false] at ok ⊢
            split at ok
            case isTrue => cases ok
            case isFalse given => rw [if_neg given]

/-! ## Dry runs -/

/-- What a dry run does to the book, at most: the intake is refilled. -/
def OnlyRefills (burst : ℚ) (moment : ReserveMoment) (book next : CellReserveBook) : Prop :=
  ∃ intake, (intake = book.intake ∨
      intake = book.intake.available burst moment.intakePerSec moment.now) ∧
    next = { book with intake := intake }

theorem onlyRefills_refl (moment : ReserveMoment) : OnlyRefills burst moment book book :=
  ⟨book.intake, Or.inl rfl, rfl⟩

theorem onlyRefills_intakeFor (item : ReserveItem) (moment : ReserveMoment) :
    OnlyRefills burst moment book
      { book with intake := book.intakeFor burst item moment } := by
  refine ⟨_, ?_, rfl⟩
  unfold intakeFor
  split
  · exact Or.inl rfl
  · exact Or.inr rfl

theorem bookItem_dryRun (book : CellReserveBook) (burst : ℚ) (directorId : String) (item : ReserveItem) (moment : ReserveMoment) :
    (book.bookItem burst directorId item true moment).2 =
        (book.bookItem burst directorId item false moment).2 ∧
      OnlyRefills burst moment book (book.bookItem burst directorId item true moment).1 := by
  unfold bookItem
  simp only
  split
  case isTrue => exact ⟨rfl, onlyRefills_refl moment⟩
  case isFalse room =>
    split
    case isTrue => exact ⟨rfl, onlyRefills_intakeFor item moment⟩
    case isFalse =>
      -- The capacity gives the unit it has room for.
      rw [← moment.capacity.agrees] at room
      rw [if_neg room]
      exact ⟨rfl, onlyRefills_intakeFor item moment⟩

theorem reserve_dryRun {context : ReserveContext} (mode : context.mode = .reserve)
    (directorId : String) (item : ReserveItem) (moment : ReserveMoment) :
    (book.reserve burst directorId item context true moment).2 =
        (book.reserve burst directorId item context false moment).2 ∧
      OnlyRefills burst moment (book.sweep moment.now)
        (book.reserve burst directorId item context true moment).1 := by
  have booked := bookItem_dryRun (book.sweep moment.now) burst directorId item moment
  unfold reserve
  simp only [mode, ne_eq, not_true_eq_false, false_and, if_false]
  split
  case isTrue => exact ⟨rfl, onlyRefills_refl moment⟩
  case isFalse =>
    split
    case isTrue =>
      split
      case h_1 => exact ⟨rfl, onlyRefills_refl moment⟩
      case h_2 => exact ⟨rfl, onlyRefills_refl moment⟩
      case h_3 => exact ⟨rfl, onlyRefills_refl moment⟩
      case h_4 => exact booked
    case isFalse =>
      split
      case isTrue => exact ⟨rfl, onlyRefills_refl moment⟩
      case isFalse => exact booked

/-! ## Takes -/

theorem of_take {userId relayHostId : String} {epoch : Int} {now : ℚ}
    (taken : (book.take userId relayHostId epoch now).2 = some booking) :
    book.bookings.get? (hostKey userId relayHostId) = some booking ∧ booking.epoch = epoch ∧
      now < booking.expiresAt ∧
      (book.take userId relayHostId epoch now).1 = { book with
        bookings := book.bookings.delete (hostKey userId relayHostId)
        pool := book.pool.release booking.unit } := by
  unfold take at taken ⊢
  simp only at taken ⊢
  split at taken
  case h_1 => cases taken
  case h_2 held found =>
    split at taken
    case isTrue => cases taken
    case isFalse admits =>
      obtain rfl := Option.some.inj taken
      rw [if_neg admits]
      simp only [ne_eq, Bool.not_eq_true', not_or, not_not, Bool.not_eq_false] at admits
      exact ⟨found, admits.1, of_decide_eq_true admits.2, rfl⟩

theorem take_none {userId relayHostId : String} {epoch : Int} {now : ℚ}
    (refused : (book.take userId relayHostId epoch now).2 = none) :
    (book.take userId relayHostId epoch now).1 = book := by
  unfold take at refused ⊢
  simp only at refused ⊢
  split at refused
  case h_1 => rfl
  case h_2 =>
    split at refused
    case isTrue misses => rw [if_pos misses]
    case isFalse => cases refused

end CellReserveBook

namespace BookRun

open CellReserveBook

variable {run : BookRun} {burst : ℚ}

/-- Every booking ever made is in the book, was taken once, or is gone; none is two of these. -/
structure Sound (run : BookRun) : Prop where
  units : run.book.HoldsUnits
  serials : run.book.Serialised
  admitted : ∀ booking ∈ run.admitted, booking.serial < run.book.made
  once : (run.admitted.map HeldBooking.serial).Nodup
  ended : ∀ key booking, run.book.bookings.get? key = some booking →
    booking.serial ∉ run.admitted.map HeldBooking.serial

theorem sound_start (burst now : ℚ) : Sound ⟨.new burst now, []⟩ where
  units := by
    refine ⟨⟨List.nodup_nil, ?_⟩, ?_, ?_, ?_⟩ <;>
      simp [CellReserveBook.new, UnitPool.empty, UnitPool.Holds, JsMap.get?, JsMap.empty]
  serials := by
    constructor <;> simp [CellReserveBook.new, JsMap.get?, JsMap.empty]
  admitted := by simp
  once := List.nodup_nil
  ended := by simp

theorem Sound.within {next : CellReserveBook} (sound : run.Sound) (units : next.HoldsUnits)
    (within : run.book.Within next) (made : next.made = run.book.made) :
    Sound { run with book := next } where
  units := units
  serials := sound.serials.within within made
  admitted := fun booking member => made.symm ▸ sound.admitted booking member
  once := sound.once
  ended := by
    intro key booking found
    obtain ⟨booking', stored, same⟩ := within key booking found
    exact same ▸ sound.ended key booking' stored

theorem sound_reserve (sound : run.Sound) (directorId : String) (item : ReserveItem)
    (context : ReserveContext) (dryRun : Bool) (moment : ReserveMoment) :
    (run.call burst (.reserve directorId item context dryRun moment)).Sound := by
  have swept : Sound { run with book := run.book.sweep moment.now } :=
    sound.within (holdsUnits_sweep sound.units moment.now) (within_sweep moment.now) rfl
  have effect : ReserveEffect burst (run.book.sweep moment.now) directorId item dryRun moment _ :=
    reserve_effect run.book directorId item context dryRun moment
  refine ⟨effect.holdsUnits swept.units, effect.serialised swept.serials, ?_, sound.once, ?_⟩
  · exact fun booking member => Nat.lt_of_lt_of_le (swept.admitted booking member) effect.made_le
  · intro key booking found
    rcases effect.within key booking found with new | ⟨booking', stored, same⟩
    · intro member
      obtain ⟨taken, member, same⟩ := List.mem_map.mp member
      exact Nat.ne_of_lt (swept.admitted taken member) (same.trans new)
    · exact same ▸ swept.ended key booking' stored

theorem sound_take (sound : run.Sound) (userId relayHostId : String) (epoch : Int) (now : ℚ) :
    (run.call burst (.take userId relayHostId epoch now)).Sound := by
  unfold call
  cases taken : (run.book.take userId relayHostId epoch now).2 with
  | none =>
    simp only [taken, take_none taken, Option.toList_none, List.append_nil]
    exact sound
  | some booking =>
    obtain ⟨found, -, -, after⟩ := of_take taken
    have stays : ∀ key booking', (run.book.bookings.delete (hostKey userId relayHostId)).get? key =
        some booking' → run.book.bookings.get? key = some booking' ∧
          key ≠ hostKey userId relayHostId := by
      intro key booking' stays
      rw [JsMap.get?_delete] at stays
      split at stays
      case isTrue => cases stays
      case isFalse other => exact ⟨stays, other⟩
    have within : run.book.Within (run.book.take userId relayHostId epoch now).1 := by
      rw [after]
      exact fun key booking' left => ⟨booking', (stays key booking' left).1, rfl⟩
    have units := holdsUnits_take sound.units userId relayHostId epoch now
    have made : (run.book.take userId relayHostId epoch now).1.made = run.book.made := by
      rw [after]
    have kept := sound.within units within made
    simp only [taken, Option.toList_some]
    refine ⟨units, kept.serials, ?_, ?_, ?_⟩
    · intro admitted member
      rcases List.mem_append.mp member with early | late
      · exact kept.admitted admitted early
      · rw [List.mem_singleton.mp late, made]
        exact sound.serials.earlier _ booking found
    · rw [List.map_append, List.map_singleton]
      refine List.nodup_append.mpr ⟨sound.once, List.nodup_singleton _, ?_⟩
      intro first member second last same
      rw [List.mem_singleton.mp last] at same
      exact sound.ended _ booking found (same ▸ member)
    · intro key booking' left
      rw [after] at left
      obtain ⟨stored, other⟩ := stays key booking' left
      rw [List.map_append, List.map_singleton, List.mem_append, not_or]
      refine ⟨sound.ended key booking' stored, fun last => other ?_⟩
      exact sound.serials.apart key _ booking' booking stored found (List.mem_singleton.mp last)

theorem sound_call (sound : run.Sound) (call : BookCall) : (run.call burst call).Sound := by
  cases call with
  | reserve directorId item context dryRun moment =>
    exact sound_reserve sound directorId item context dryRun moment
  | handOff userId relayHostId now =>
    obtain ⟨within, made⟩ := within_handOff run.book userId relayHostId now
    exact sound.within (holdsUnits_handOff sound.units userId relayHostId now) within made
  | take userId relayHostId epoch now => exact sound_take sound userId relayHostId epoch now
  | sweep now => exact sound.within (holdsUnits_sweep sound.units now) (within_sweep now) rfl
  | clear =>
    refine sound.within (holdsUnits_clear sound.units) (fun key booking found => ?_) rfl
    cases found

theorem sound_after (burst now : ℚ) (calls : List BookCall) : (after burst now calls).Sound :=
  foldl_preserves (sound_start burst now) (fun _ call sound => sound_call sound call) calls

/-! ## Every run -/

/-- What holds of a book and the takes of its run, whatever was called. -/
structure Kept (burst : ℚ) (run : BookRun) : Prop where
  /-- The units held are those of the bookings not handed off. -/
  held : ∀ unit, run.book.pool.Holds unit ↔
    ∃ key booking, run.book.bookings.get? key = some booking ∧ booking.unit = unit ∧
      booking.handedOff = false
  /-- No two bookings are for one unit. -/
  apart : ∀ first second booking booking', run.book.bookings.get? first = some booking →
    run.book.bookings.get? second = some booking' → booking.unit = booking'.unit → first = second
  /-- A unit is released at most once. -/
  once : run.book.pool.releases.Nodup
  /-- A unit whose booking is gone is released. -/
  released : ∀ unit < run.book.pool.released.length,
    (∀ key booking, run.book.bookings.get? key = some booking → booking.unit ≠ unit) →
      unit ∈ run.book.pool.releases
  /-- A fresh item is booked above the host's seat and its live booking. -/
  above : ∀ directorId item context dryRun moment, item.sticky = false →
    (run.book.reserve burst directorId item context dryRun moment).2 = .ok →
    (∀ seated, context.seatedEpoch item.userId item.relayHostId = some seated →
      seated < item.epoch) ∧
    (∀ booking, run.book.bookings.get? (hostKey item.userId item.relayHostId) = some booking →
      moment.now < booking.expiresAt → booking.epoch < item.epoch) ∧
    (dryRun = false → ∃ booking,
      (run.book.reserve burst directorId item context dryRun moment).1.bookings.get?
        (hostKey item.userId item.relayHostId) = some booking ∧ booking.epoch = item.epoch)
  /-- No reserve lowers the epoch of a host's live booking. -/
  raises : ∀ directorId item context dryRun moment key booking booking',
    run.book.bookings.get? key = some booking → moment.now < booking.expiresAt →
    (run.book.reserve burst directorId item context dryRun moment).1.bookings.get? key =
      some booking' → booking.epoch ≤ booking'.epoch
  /-- No booking was taken twice. -/
  taken : (run.admitted.map HeldBooking.serial).Nodup
  /-- A booking is taken at its epoch, before its expiry. -/
  admits : ∀ userId relayHostId epoch now booking,
    (run.book.take userId relayHostId epoch now).2 = some booking →
      booking.epoch = epoch ∧ now < booking.expiresAt
  /-- A dry run answers as the run would, and only sweeps and refills. -/
  dry : ∀ directorId item (context : ReserveContext) moment, context.mode = .reserve →
    (run.book.reserve burst directorId item context true moment).2 =
        (run.book.reserve burst directorId item context false moment).2 ∧
      OnlyRefills burst moment (run.book.sweep moment.now)
        (run.book.reserve burst directorId item context true moment).1

theorem Sound.released (sound : run.Sound) {unit : Nat}
    (given : unit < run.book.pool.released.length)
    (gone : ∀ key booking, run.book.bookings.get? key = some booking → booking.unit ≠ unit) :
    unit ∈ run.book.pool.releases := by
  have found : run.book.pool.released[unit]? = some _ := List.getElem?_eq_getElem given
  rw [sound.units.recorded.released, found]
  cases held : run.book.pool.released[unit] with
  | true => rfl
  | false =>
    rw [held] at found
    obtain ⟨key, booking, stored, same, -⟩ := (sound.units.held unit).mp found
    exact absurd same (gone key booking stored)

/-- Bookings are never oversold and never admit twice. -/
theorem reserve_book_kept (burst start : ℚ) (calls : List BookCall) :
    (after burst start calls).Kept burst := by
  have sound := sound_after burst start calls
  refine ⟨sound.units.held, sound.units.apart, sound.units.recorded.once,
    fun _ given gone => sound.released given gone, ?_, ?_, sound.once, ?_, ?_⟩
  · intro directorId item context dryRun moment fresh ok
    obtain ⟨newer, books⟩ := reserve_ok fresh ok
    refine ⟨fun seated seats => ?_, fun booking found live => ?_, fun real => ?_⟩
    · rw [seats] at newer
      exact (seated_le_knownEpoch seated _).trans_lt newer
    · rw [get?_sweep_eq_some.mpr ⟨found, decide_eq_true live⟩] at newer
      exact (epoch_le_knownEpoch _ booking).trans_lt newer
    · rw [books real]
      exact ⟨_, JsMap.get?_set_self .., rfl⟩
  · intro directorId item context dryRun moment key booking booking' found live found'
    have effect : ReserveEffect burst _ directorId item dryRun moment _ :=
      reserve_effect (after burst start calls).book directorId item context dryRun moment
    exact effect.epoch_le (get?_sweep_eq_some.mpr ⟨found, decide_eq_true live⟩) found'
  · intro userId relayHostId epoch now booking taken
    obtain ⟨-, sameEpoch, live, -⟩ := of_take taken
    exact ⟨sameEpoch, live⟩
  · exact fun directorId item context moment mode => reserve_dryRun mode directorId item moment

/-! ## A dry run that sweeps -/

def roomyCapacity : BookingCapacity := ⟨fun _ => true, fun _ => true, fun _ => rfl⟩

def servingContext : ReserveContext := ⟨.reserve, false, fun _ _ => none⟩

def briefBooking : CellReserveBook :=
  (after 20 0 [.reserve "director" ⟨"user", "host", 1, 10, false⟩ servingContext false
    ⟨0, 1, roomyCapacity⟩]).book

/-- A dry run for another host removes the expired booking and releases its unit. -/
theorem dryRun_sweeps_expired :
    let dry := (briefBooking.reserve 20 "director" ⟨"user", "other", 1, 10, false⟩ servingContext
      true ⟨20, 1, roomyCapacity⟩).1
    dry.bookings ≠ briefBooking.bookings ∧ dry.pool ≠ briefBooking.pool ∧
      dry.intake ≠ briefBooking.intake := by
  decide +kernel

end BookRun

end OxeeUI.Relay
