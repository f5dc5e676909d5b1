import Mathlib.Algebra.Order.Field.Rat
import OxeeUI.Library.JsMap

/-!
# The reserve book of a cell

A booking holds a unit of the cell's capacity for a host until the host's hello takes it, its
upgrade counts the unit itself, or it expires.  An intake bucket paces the bookings.
-/

namespace OxeeUI.Relay

open OxeeUI.Library

/-! ## Units -/

/-- The units a capacity gave out.  Releasing one again does nothing. -/
structure UnitPool where
  /-- Of each unit, whether it was released. -/
  released : List Bool
  /-- The releases that had an effect, in order. -/
  releases : List Nat
deriving DecidableEq

namespace UnitPool

def empty : UnitPool := ⟨[], []⟩

def release (pool : UnitPool) (unit : Nat) : UnitPool :=
  if pool.released[unit]? = some false then
    ⟨pool.released.set unit true, pool.releases ++ [unit]⟩
  else pool

def releaseAll (pool : UnitPool) (units : List Nat) : UnitPool := units.foldl release pool

/-- `tryReserve`, where there is room. -/
def give (pool : UnitPool) : UnitPool := { pool with released := pool.released ++ [false] }

end UnitPool

/-- Whether there is room for one unit more, and whether one is given, with what the book holds.
The cell's other connections share the capacity, so it is of one moment. -/
structure BookingCapacity where
  canReserve : UnitPool → Bool
  tryReserve : UnitPool → Bool
  agrees : ∀ pool, tryReserve pool = canReserve pool

/-! ## Intake -/

structure IntakeBucket where
  tokens : ℚ
  refilledAt : ℚ
deriving DecidableEq

namespace IntakeBucket

def new (burst now : ℚ) : IntakeBucket := ⟨burst, now⟩

/-- `available` refills the bucket; its tokens are what it answers. -/
def available (burst rate now : ℚ) (bucket : IntakeBucket) : IntakeBucket :=
  let elapsedMs := max 0 (now - bucket.refilledAt)
  ⟨min burst (bucket.tokens + elapsedMs / 1000 * rate), now⟩

def take (burst rate now : ℚ) (bucket : IntakeBucket) : IntakeBucket × Bool :=
  let refilled := bucket.available burst rate now
  if refilled.tokens < 1 then (refilled, false)
  else ({ refilled with tokens := refilled.tokens - 1 }, true)

end IntakeBucket

/-! ## Bookings -/

inductive CellAdmitMode
  | db | reserve
deriving DecidableEq

structure ReserveContext where
  mode : CellAdmitMode
  draining : Bool
  seatedEpoch : String → String → Option Int

structure ReserveItem where
  userId : String
  relayHostId : String
  epoch : Int
  ttlMs : ℚ
  sticky : Bool

inductive ReserveOutcome
  | ok
  | full
  | intake
  | draining
  | off
  | seatedNewer (epoch : Int)

structure CellBooking where
  userId : String
  relayHostId : String
  epoch : Int
  directorId : String
  expiresAt : ℚ
deriving DecidableEq

structure HeldBooking extends CellBooking where
  unit : Nat
  handedOff : Bool
  /-- Which of the bookings ever made it is; the book never reads it. -/
  serial : Nat
deriving DecidableEq

/-- `${userId}\u0000${relayHostId}`. -/
def hostKey (userId relayHostId : String) : String := userId ++ "\x00" ++ relayHostId

structure CellReserveBook where
  bookings : JsMap String HeldBooking
  intake : IntakeBucket
  pool : UnitPool
  /-- How many bookings were made. -/
  made : Nat

/-- What a call reads beside its arguments: the clock, the intake rate and the capacity. -/
structure ReserveMoment where
  now : ℚ
  intakePerSec : ℚ
  capacity : BookingCapacity

namespace CellReserveBook

variable (burst : ℚ)

def new (burst now : ℚ) : CellReserveBook := ⟨.empty, .new burst now, .empty, 0⟩

def isLive (now : ℚ) (booking : HeldBooking) : Bool := now < booking.expiresAt

/-- Expired bookings go, and their units with them. -/
def sweep (book : CellReserveBook) (now : ℚ) : CellReserveBook :=
  let expired := book.bookings.values.filter fun booking => !isLive now booking
  { book with
    bookings := book.bookings.filter fun _ booking => isLive now booking
    pool := book.pool.releaseAll (expired.map HeldBooking.unit) }

/-- `Math.max(seated ?? 0, booked?.epoch ?? 0)`. -/
def knownEpoch (seated : Option Int) (booked : Option HeldBooking) : Int :=
  max (seated.getD 0) ((booked.map (·.epoch)).getD 0)

/-- A sticky item's answer when its host has its seat or its booking already. -/
inductive StickyAnswer
  | newer (epoch : Int)
  | seated
  | booked (booking : HeldBooking)
  | unknown

def stickyAnswer (item : ReserveItem) (seated : Option Int) (booked : Option HeldBooking) :
    StickyAnswer :=
  if knownEpoch seated booked > item.epoch then .newer (knownEpoch seated booked)
  else if seated = some item.epoch then .seated
  else
    match booked with
    | some booking => if booking.epoch = item.epoch then .booked booking else .unknown
    | none => .unknown

/-- A lower-epoch booking for the host hands its unit to the new one. -/
def heldUnit (booked : Option HeldBooking) : Option Nat :=
  booked.bind fun booking => if booking.handedOff then none else some booking.unit

/-- The intake as an item finds it: the re-booking of a host after a restart books nothing new,
so it takes no token. -/
def intakeFor (book : CellReserveBook) (item : ReserveItem) (moment : ReserveMoment) :
    IntakeBucket :=
  if item.sticky then book.intake
  else book.intake.available burst moment.intakePerSec moment.now

/-- The booking an item gets, with its host's unit or the next one given out. -/
def newBooking (book : CellReserveBook) (directorId : String) (item : ReserveItem) (now : ℚ) :
    HeldBooking where
  userId := item.userId
  relayHostId := item.relayHostId
  epoch := item.epoch
  directorId := directorId
  expiresAt := now + item.ttlMs
  unit := (heldUnit (book.bookings.get? (hostKey item.userId item.relayHostId))).getD
    book.pool.released.length
  handedOff := false
  serial := book.made

def withBooking (book : CellReserveBook) (directorId : String) (item : ReserveItem)
    (moment : ReserveMoment) : CellReserveBook :=
  let key := hostKey item.userId item.relayHostId
  let intake := book.intakeFor burst item moment
  { bookings := book.bookings.set key (book.newBooking directorId item moment.now)
    intake :=
      if item.sticky then intake else (intake.take burst moment.intakePerSec moment.now).1
    pool := if heldUnit (book.bookings.get? key) = none then book.pool.give else book.pool
    made := book.made + 1 }

/-- The part of `reserve` that books, after the checks on the host's epoch. -/
def bookItem (book : CellReserveBook) (directorId : String) (item : ReserveItem) (dryRun : Bool)
    (moment : ReserveMoment) : CellReserveBook × ReserveOutcome :=
  let held := heldUnit (book.bookings.get? (hostKey item.userId item.relayHostId))
  if held = none ∧ !moment.capacity.canReserve book.pool then (book, .full)
  else
    let intake := book.intakeFor burst item moment
    let refilled := { book with intake := intake }
    if !item.sticky ∧ intake.tokens < 1 then (refilled, .intake)
    else if dryRun then (refilled, .ok)
    else if held = none ∧ !moment.capacity.tryReserve book.pool then (refilled, .full)
    else (book.withBooking burst directorId item moment, .ok)

/-- A sticky item whose booking the host has keeps it for longer. -/
def extendBooking (book : CellReserveBook) (item : ReserveItem) (booking : HeldBooking) (now : ℚ) :
    CellReserveBook :=
  { book with
    bookings := book.bookings.set (hostKey item.userId item.relayHostId)
      { booking with expiresAt := max booking.expiresAt (now + item.ttlMs) } }

def reserve (book : CellReserveBook) (directorId : String) (item : ReserveItem)
    (context : ReserveContext) (dryRun : Bool) (moment : ReserveMoment) :
    CellReserveBook × ReserveOutcome :=
  let book := book.sweep moment.now
  if context.mode ≠ .reserve ∧ !dryRun then (book, .off)
  else if context.draining then (book, .draining)
  else
    let key := hostKey item.userId item.relayHostId
    let seated := context.seatedEpoch item.userId item.relayHostId
    let booked := book.bookings.get? key
    if item.sticky then
      match stickyAnswer item seated booked with
      | .newer epoch => (book, .seatedNewer epoch)
      | .seated => (book, .ok)
      | .booked booking =>
        (if dryRun then book else book.extendBooking item booking moment.now, .ok)
      | .unknown => book.bookItem burst directorId item dryRun moment
    else if knownEpoch seated booked ≥ item.epoch then
      (book, .seatedNewer (knownEpoch seated booked))
    else book.bookItem burst directorId item dryRun moment

def has (book : CellReserveBook) (userId relayHostId : String) (now : ℚ) : Bool :=
  (book.bookings.get? (hostKey userId relayHostId)).any (isLive now)

/-- The host's upgrade counts the unit from here on. -/
def handOff (book : CellReserveBook) (userId relayHostId : String) (now : ℚ) : CellReserveBook :=
  let key := hostKey userId relayHostId
  match book.bookings.get? key with
  | none => book
  | some booking =>
    if booking.handedOff ∨ !isLive now booking then book
    else
      { book with
        bookings := book.bookings.set key { booking with handedOff := true }
        pool := book.pool.release booking.unit }

/-- A booking at exactly the epoch admits the host once. -/
def take (book : CellReserveBook) (userId relayHostId : String) (epoch : Int) (now : ℚ) :
    CellReserveBook × Option HeldBooking :=
  let key := hostKey userId relayHostId
  match book.bookings.get? key with
  | none => (book, none)
  | some booking =>
    if booking.epoch ≠ epoch ∨ !isLive now booking then (book, none)
    else
      ({ book with
          bookings := book.bookings.delete key
          pool := book.pool.release booking.unit },
        some booking)

def clear (book : CellReserveBook) : CellReserveBook :=
  { book with
    bookings := .empty
    pool := book.pool.releaseAll (book.bookings.values.map HeldBooking.unit) }

end CellReserveBook

/-! ## Runs -/

inductive BookCall
  | reserve (directorId : String) (item : ReserveItem) (context : ReserveContext) (dryRun : Bool)
      (moment : ReserveMoment)
  | handOff (userId relayHostId : String) (now : ℚ)
  | take (userId relayHostId : String) (epoch : Int) (now : ℚ)
  | sweep (now : ℚ)
  | clear

/-- A book and the bookings that were taken, oldest first. -/
structure BookRun where
  book : CellReserveBook
  admitted : List HeldBooking

namespace BookRun

def call (burst : ℚ) (run : BookRun) : BookCall → BookRun
  | .reserve directorId item context dryRun moment =>
    { run with book := (run.book.reserve burst directorId item context dryRun moment).1 }
  | .handOff userId relayHostId now => { run with book := run.book.handOff userId relayHostId now }
  | .take userId relayHostId epoch now =>
    let taken := run.book.take userId relayHostId epoch now
    ⟨taken.1, run.admitted ++ taken.2.toList⟩
  | .sweep now => { run with book := run.book.sweep now }
  | .clear => { run with book := run.book.clear }

def after (burst now : ℚ) (calls : List BookCall) : BookRun :=
  calls.foldl (call burst) ⟨.new burst now, []⟩

end BookRun

end OxeeUI.Relay
