import Mathlib.Algebra.Order.Ring.Rat
import OxeeUI.Library.Json
import OxeeUI.Relay.CellReserveBook

/-!
# The seat directory of a director

A director mirrors the seat feeds of its cells: a map of seats for each cell, and an index of
them by host.  A seat is one object in both, so a change of it shows in both.
-/

namespace OxeeUI.Relay

open OxeeUI.Library

/-! ## The feed as a director reads it -/

structure SeatFeedChange where
  seq : Nat
  kind : String
  userId : String
  relayHostId : String
  epoch : Int
  generation : Int
  state : Option String
  closeCode : Option Nat
  reservedBy : Option String
  time : Int

structure SeatFeedSeat where
  userId : String
  relayHostId : String
  epoch : Int
  generation : Int
  state : String
  joinedAt : Int

structure SeatFeedLeaver where
  userId : String
  relayHostId : String
  epoch : Int
  closeCode : Option Nat
  time : Int

structure SeatFeedCounts where
  seats : Option Nat
  controls : Option Nat
  bookings : Option Nat
  units : Option Nat
  ceiling : Option Nat

structure SeatFeedIntake where
  perSec : ℚ
  burst : ℚ
  tokens : ℚ

structure SeatFeedFlags where
  generation : String
  flags : Json

structure SeatFeedResponse where
  cellId : String
  incarnation : String
  seq : Nat
  draining : Option Bool
  counts : SeatFeedCounts
  intake : Option SeatFeedIntake
  flagsApplied : Option SeatFeedFlags
  admitModeEffective : Option String
  admitModeRaw : Option String
  changes : Option (List SeatFeedChange)
  full : Option (List SeatFeedSeat)
  recentlyLeft : Option (List SeatFeedLeaver)

/-! ## The directory -/

structure ShadowSeat where
  cellId : String
  epoch : Int
  generation : Int
  state : String
  joinedAt : Int
  observedAt : Int
  incarnation : Option String

structure RecentlyLeftSeat where
  cellId : String
  epoch : Int
  generation : Int
  incarnation : Option String
  closeCode : Option Nat
  resync : Bool
  time : Int

inductive SeatFeedCellStatus
  | pending | live | unverifiable | noFeed
deriving DecidableEq

structure CellCursor where
  status : SeatFeedCellStatus
  incarnation : Option String
  seq : Option Nat
  lastAnsweredAt : Option Int
  lastLiveAt : Option Int
  lastFailure : Option String
  draining : Option Bool
  reportedSeats : Option Nat
  reportedControls : Option Nat
  flagsApplied : Option SeatFeedFlags
  flagsIncarnation : Option String
  admitModeEffective : Option String
  admitModeRaw : Option String
  polledAt : Option Int
  bookings : Option Nat
  units : Option Nat
  ceiling : Option Nat
  intake : Option SeatFeedIntake
  /-- The seat objects by host key. -/
  seats : JsMap String Nat

def CellCursor.pending : CellCursor where
  status := .pending
  incarnation := none
  seq := none
  lastAnsweredAt := none
  lastLiveAt := none
  lastFailure := none
  draining := none
  reportedSeats := none
  reportedControls := none
  flagsApplied := none
  flagsIncarnation := none
  admitModeEffective := none
  admitModeRaw := none
  polledAt := none
  bookings := none
  units := none
  ceiling := none
  intake := none
  seats := .empty

structure KnownBooking where
  cellId : String
  epoch : Int
  time : Int

/-- A join a booking admitted, as `onBookedJoin` is told. -/
structure BookedJoin where
  cellId : String
  userId : String
  relayHostId : String
  epoch : Int
  generation : Int
  joinedAt : Int
  reservedBy : String

structure ShadowSeatDirectory where
  cells : JsMap String CellCursor
  hosts : JsMap String (JsMap String Nat)
  /-- The seat objects, in the order of their creation. -/
  objects : List ShadowSeat
  recentlyLeft : JsMap String (List RecentlyLeftSeat)
  required : List String
  bookings : JsMap String KnownBooking
  bookedJoins : List BookedJoin

def shadowSeatRecentlyLeftTtlMs : Int := 24 * 60 * 60 * 1000
def shadowSeatRecentlyLeftMaxHosts : Nat := 100000
def recentlyLeftPerHost : Nat := 4

namespace ShadowSeatDirectory

def new : ShadowSeatDirectory where
  cells := .empty
  hosts := .empty
  objects := []
  recentlyLeft := .empty
  required := []
  bookings := .empty
  bookedJoins := []

/-- Change a cell's cursor, which must be there. -/
def updateCursor (directory : ShadowSeatDirectory) (cellId : String)
    (change : CellCursor → CellCursor) : ShadowSeatDirectory :=
  match directory.cells.get? cellId with
  | none => directory
  | some cursor => { directory with cells := directory.cells.set cellId (change cursor) }

/-! ## Seats -/

def unindex (directory : ShadowSeatDirectory) (key cellId : String) : ShadowSeatDirectory :=
  match directory.hosts.get? key with
  | none => directory
  | some seats =>
    let left := seats.delete cellId
    if left.size = 0 then { directory with hosts := directory.hosts.delete key }
    else { directory with hosts := directory.hosts.set key left }

def unseat (directory : ShadowSeatDirectory) (cellId key : String) : ShadowSeatDirectory :=
  (directory.updateCursor cellId fun cursor =>
    { cursor with seats := cursor.seats.delete key }).unindex key cellId

/-- The new seat object is put into the cell's map and into the host's. -/
def seat (directory : ShadowSeatDirectory) (cellId key : String) (seat : ShadowSeat) :
    ShadowSeatDirectory :=
  let object := directory.objects.length
  let created := { directory with objects := directory.objects ++ [seat] }
  let seated := created.updateCursor cellId fun cursor =>
    { cursor with seats := cursor.seats.set key object }
  let seats := (seated.hosts.get? key).getD .empty
  { seated with hosts := seated.hosts.set key (seats.set cellId object) }

/-- The object a cell's map holds for the host. -/
def objectAt (directory : ShadowSeatDirectory) (cellId key : String) : Option Nat :=
  (directory.cells.get? cellId).bind fun cursor => cursor.seats.get? key

def seatAt (directory : ShadowSeatDirectory) (cellId key : String) : Option ShadowSeat :=
  (directory.objectAt cellId key).bind fun object => directory.objects[object]?

/-- The object the host's index holds for the cell. -/
def indexedObject (directory : ShadowSeatDirectory) (key cellId : String) : Option Nat :=
  (directory.hosts.get? key).bind fun seats => seats.get? cellId

def updateObject (directory : ShadowSeatDirectory) (object : Nat)
    (change : ShadowSeat → ShadowSeat) : ShadowSeatDirectory :=
  { directory with objects := directory.objects.modify object change }

/-! ## What is remembered of hosts -/

def rememberBooking (directory : ShadowSeatDirectory) (key cellId : String) (epoch time : Int) :
    ShadowSeatDirectory :=
  if (directory.bookings.get? key).any fun known => known.epoch > epoch then directory
  else
    let bookings := (directory.bookings.delete key).set key ⟨cellId, epoch, time⟩
    if bookings.size > shadowSeatRecentlyLeftMaxHosts then
      match bookings.keys.head? with
      | some oldest => { directory with bookings := bookings.delete oldest }
      | none => { directory with bookings := bookings }
    else { directory with bookings := bookings }

/-- The oldest hosts are forgotten, up to the first whose newest leave is recent in the bound. -/
def forgetLeft (cutoff : Int) : List (String × List RecentlyLeftSeat) →
    JsMap String (List RecentlyLeftSeat) → JsMap String (List RecentlyLeftSeat)
  | [], recentlyLeft => recentlyLeft
  | (oldestKey, oldest) :: rest, recentlyLeft =>
    if recentlyLeft.size ≤ shadowSeatRecentlyLeftMaxHosts ∧
        (oldest.getLast?.any fun newest => newest.time > cutoff) = true then recentlyLeft
    else forgetLeft cutoff rest (recentlyLeft.delete oldestKey)

def rememberLeft (directory : ShadowSeatDirectory) (key : String) (entry : RecentlyLeftSeat) :
    ShadowSeatDirectory :=
  let entries := (directory.recentlyLeft.get? key).getD [] ++ [entry]
  let recentlyLeft := (directory.recentlyLeft.delete key).set key
    (entries.drop (entries.length - recentlyLeftPerHost))
  { directory with
    recentlyLeft := forgetLeft (entry.time - shadowSeatRecentlyLeftTtlMs) recentlyLeft.entries
      recentlyLeft }

/-! ## Cells -/

/-- A cell that is no longer listed is forgotten with its seats. -/
def dropCell (directory : ShadowSeatDirectory) (cellId : String) : ShadowSeatDirectory :=
  match directory.cells.get? cellId with
  | none => directory
  | some cursor =>
    let unindexed := cursor.seats.keys.foldl (fun directory key => directory.unindex key cellId)
      directory
    { unindexed with cells := unindexed.cells.delete cellId }

def addCell (directory : ShadowSeatDirectory) (cellId : String) : ShadowSeatDirectory :=
  if directory.cells.has cellId then directory
  else { directory with cells := directory.cells.set cellId .pending }

def setCells (directory : ShadowSeatDirectory) (cellIds required : List String) :
    ShadowSeatDirectory :=
  let listed := { directory with required := required.filter (· ∈ cellIds) }
  let kept := (listed.cells.keys.filter (· ∉ cellIds)).foldl dropCell listed
  cellIds.foldl addCell kept

/-- The cursor of the next poll; the text joins the two with a colon. -/
def since (directory : ShadowSeatDirectory) (cellId : String) : Option (String × Nat) := do
  let cursor ← directory.cells.get? cellId
  let incarnation ← cursor.incarnation
  let seq ← cursor.seq
  return (incarnation, seq)

def markNoFeed (directory : ShadowSeatDirectory) (cellId : String) (now : Int)
    (runtimeIncarnation : Option String) : ShadowSeatDirectory :=
  directory.updateCursor cellId fun cursor =>
    let marked : CellCursor := { cursor with
      status := .noFeed
      lastAnsweredAt := some now
      incarnation := none
      seq := none
      polledAt := none
      bookings := none
      units := none
      ceiling := none
      intake := none }
    let reserve := cursor.flagsApplied.any fun applied =>
      applied.flags.member "admitMode" = .string "reserve"
    let replaced := runtimeIncarnation ≠ none ∧ runtimeIncarnation ≠ cursor.flagsIncarnation
    if reserve = false ∨ replaced then
      { marked with
        flagsApplied := none
        flagsIncarnation := none
        admitModeEffective := none
        admitModeRaw := none }
    else marked

def fail (directory : ShadowSeatDirectory) (cellId reason : String) : ShadowSeatDirectory :=
  directory.updateCursor cellId fun cursor =>
    { cursor with
      status := if cursor.status ≠ .pending ∧ cursor.status ≠ .noFeed then .unverifiable
        else cursor.status
      lastFailure := some reason }

/-! ## Replies -/

def reportBookedJoin (directory : ShadowSeatDirectory) (cellId : String)
    (change : SeatFeedChange) : ShadowSeatDirectory :=
  match change.reservedBy with
  | none => directory
  | some reservedBy =>
    { directory with
      bookedJoins := directory.bookedJoins ++
        [⟨cellId, change.userId, change.relayHostId, change.epoch, change.generation, change.time,
          reservedBy⟩] }

def applyChange (cellId : String) (incarnation : Option String) (now : Int)
    (directory : ShadowSeatDirectory) (change : SeatFeedChange) : ShadowSeatDirectory :=
  let key := hostKey change.userId change.relayHostId
  if change.kind = "reserve" then directory.rememberBooking key cellId change.epoch change.time
  else
    let held := directory.seatAt cellId key
    if held.any fun seat => change.generation < seat.generation then directory
    else if change.kind = "join" then
      (directory.seat cellId key
        { cellId := cellId
          epoch := change.epoch
          generation := change.generation
          state := change.state.getD "active"
          joinedAt := change.time
          observedAt := now
          incarnation := incarnation }).reportBookedJoin cellId change
    else if change.kind = "leave" then
      match held with
      | none => directory
      | some _ =>
        (directory.unseat cellId key).rememberLeft key
          { cellId := cellId
            epoch := change.epoch
            generation := change.generation
            incarnation := incarnation
            closeCode := change.closeCode
            resync := false
            time := change.time }
    else if change.kind = "drain-only" ∨ change.kind = "active" then
      match directory.objectAt cellId key with
      | none => directory
      | some object =>
        directory.updateObject object fun seat =>
          { seat with state := change.kind, observedAt := now }
    else directory

/-- The loop of `applyChanges`: where it ends, or none at a gap. -/
def applyChanges (cellId : String) (incarnation : Option String) (now : Int) :
    List SeatFeedChange → Nat → ShadowSeatDirectory → ShadowSeatDirectory × Option Nat
  | [], seq, directory => (directory, some seq)
  | change :: rest, seq, directory =>
    if change.seq ≤ seq then applyChanges cellId incarnation now rest seq directory
    else if change.seq ≠ seq + 1 then (directory, none)
    else applyChanges cellId incarnation now rest change.seq
      (applyChange cellId incarnation now directory change)

def snapshotSeat (cellId incarnation : String) (now : Int) (seat : SeatFeedSeat) : ShadowSeat where
  cellId := cellId
  epoch := seat.epoch
  generation := seat.generation
  state := seat.state
  joinedAt := seat.joinedAt
  observedAt := now
  incarnation := some incarnation

/-- A seat the snapshot does not list leaves without a close code. -/
def resyncSeat (cellId : String) (now : Int) (directory : ShadowSeatDirectory)
    (entry : String × ShadowSeat) : ShadowSeatDirectory :=
  (directory.unseat cellId entry.1).rememberLeft entry.1
    { cellId := cellId
      epoch := entry.2.epoch
      generation := entry.2.generation
      incarnation := entry.2.incarnation
      closeCode := none
      resync := true
      time := now }

def seatsOnCell (directory : ShadowSeatDirectory) (cellId : String) :
    List (String × ShadowSeat) :=
  match directory.cells.get? cellId with
  | none => []
  | some cursor => cursor.seats.entries.filterMap fun entry =>
    directory.objects[entry.2]?.map fun seat => (entry.1, seat)

def replaceSeats (directory : ShadowSeatDirectory) (cellId : String) (full : List SeatFeedSeat)
    (now : Int) (incarnation : String) : ShadowSeatDirectory :=
  let next : JsMap String ShadowSeat := JsMap.ofPairs (full.map fun seat =>
    (hostKey seat.userId seat.relayHostId, snapshotSeat cellId incarnation now seat))
  let gone := (directory.seatsOnCell cellId).filter fun entry => ¬next.has entry.1
  next.entries.foldl (fun directory entry => directory.seat cellId entry.1 entry.2)
    (gone.foldl (resyncSeat cellId now) directory)

def rememberLeavers (directory : ShadowSeatDirectory) (cellId incarnation : String)
    (recentlyLeft : List SeatFeedLeaver) : ShadowSeatDirectory :=
  recentlyLeft.foldl (fun directory left =>
    let key := hostKey left.userId left.relayHostId
    if (directory.objectAt cellId key).isSome then directory
    else directory.rememberLeft key
      { cellId := cellId
        epoch := left.epoch
        generation := 0
        incarnation := some incarnation
        closeCode := left.closeCode
        resync := false
        time := left.time }) directory

/-- The fields of a cursor after a reply that counts. -/
def answered (response : SeatFeedResponse) (now polledAt : Int) (seq : Nat)
    (cursor : CellCursor) : CellCursor :=
  { cursor with
    incarnation := some response.incarnation
    seq := some seq
    status := .live
    lastAnsweredAt := some now
    lastLiveAt := some now
    lastFailure := none
    draining := response.draining
    reportedSeats := response.counts.seats
    reportedControls := response.counts.controls
    flagsApplied := response.flagsApplied
    flagsIncarnation := some response.incarnation
    admitModeEffective := response.admitModeEffective
    admitModeRaw := response.admitModeRaw
    polledAt := some polledAt
    bookings := response.counts.bookings
    units := response.counts.units
    ceiling := response.counts.ceiling
    intake := response.intake }

def resync (cursor : CellCursor) : CellCursor := { cursor with incarnation := none, seq := none }

def applyDelta (directory : ShadowSeatDirectory) (cellId : String) (cursor : CellCursor)
    (response : SeatFeedResponse) (now polledAt : Int) : ShadowSeatDirectory :=
  let changes := response.changes.getD []
  let (changed, seq) :=
    if cursor.incarnation = some response.incarnation then
      applyChanges cellId cursor.incarnation now changes (cursor.seq.getD 0) directory
    else (directory, none)
  match seq with
  | none => (changed.updateCursor cellId resync).fail cellId "cursor_gap"
  | some seq =>
    if seq < response.seq ∧ changes = [] then
      (changed.updateCursor cellId resync).fail cellId "cursor_gap"
    else changed.updateCursor cellId (answered response now polledAt seq)

def apply (directory : ShadowSeatDirectory) (cellId : String) (response : SeatFeedResponse)
    (now polledAt : Int) : ShadowSeatDirectory :=
  match directory.cells.get? cellId with
  | none => directory
  | some cursor =>
    if response.cellId ≠ cellId then directory.fail cellId "cell_id_mismatch"
    else
      match response.full with
      | some full =>
        ((directory.replaceSeats cellId full now response.incarnation).rememberLeavers cellId
          response.incarnation (response.recentlyLeft.getD [])).updateCursor cellId
            (answered response now polledAt response.seq)
      | none => directory.applyDelta cellId cursor response now polledAt

end ShadowSeatDirectory

end OxeeUI.Relay
