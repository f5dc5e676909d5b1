import OxeeUI.Relay.ReservePlacement
import OxeeUI.Library.Asking
import OxeeUI.Relay.ShadowSeatDirectory

/-!
# Rehoming a host that reconnects

A host that reconnects outside its region may be placed in it, within a budget for each cell it
leaves.  A rule that fails keeps the host where it is.
-/

namespace OxeeUI.Relay

open OxeeUI.Library

structure Identity where
  userId : String
  relayHostId : String
deriving DecidableEq

def Identity.key (identity : Identity) : String := hostKey identity.userId identity.relayHostId

def closeCodePeerDropped : Nat := 4408
def closeCodeWrongCell : Nat := 4409
def closeCodeDraining : Nat := 4503

def reserveRehomeTargetFreeShare : ℚ := 1 / 10
def reserveRehomePeerDroppedMs : Int := 10 * 60000
def reserveRehomeHostCooldownMs : Int := 24 * 60 * 60000
def reserveRehomeMovedMax : Nat := 100000
def reserveRehomeSourceSharePerMinute : ℚ := 5 / 10000

structure RehomeBudget where
  tokens : ℚ
  refilledAt : Int

structure ReserveRehome where
  percent : Nat
  /-- The bucket of a host, a digest of its identity. -/
  bucket : Identity → Nat
  moved : JsMap String Int
  budgets : JsMap String RehomeBudget

structure RehomeTargetRoom where
  free : Nat
  ceiling : Nat
  bookable : Bool

structure RehomeLeave where
  region : Option RelayRegion
  closeCode : Option Nat
  time : Int

inductive RehomeSkip
  | switch | cohort | peerDropped | movedRecently | unknownLeaveRegion | targetRoom | sourceBudget

structure RehomeRequest where
  identity : Identity
  sourceCellId : String
  sourceControls : Nat
  leaves : List RehomeLeave
  target : RehomeTargetRoom
  now : Int
  /-- What the rehome switch last said. -/
  switchOpen : Bool

namespace ReserveRehome

variable (rehome : ReserveRehome)

def enabled : Bool := 0 < rehome.percent

/-- A new director starts empty, so a deploy cannot burst. -/
def refilled (cellId : String) (controls : Nat) (now : Int) : RehomeBudget :=
  let budget := (rehome.budgets.get? cellId).getD ⟨0, now⟩
  let minutes : ℚ := (max 0 (now - budget.refilledAt) : Int) / 60000
  ⟨min 1 (budget.tokens + minutes * controls * reserveRehomeSourceSharePerMinute), now⟩

def withBudget (cellId : String) (budget : RehomeBudget) : ReserveRehome :=
  { rehome with budgets := rehome.budgets.set cellId budget }

/-- `admit`: the first rule that fails, or none with a token of the source cell taken. -/
def admitRehome (request : RehomeRequest) : Option RehomeSkip × ReserveRehome :=
  let leftRegions := (request.leaves.map (·.region)).dedup
  let movedByThisDirector := (rehome.moved.get? request.identity.key).any fun movedAt =>
    request.now - movedAt < reserveRehomeHostCooldownMs
  if !request.switchOpen then (some .switch, rehome)
  else if rehome.percent ≤ rehome.bucket request.identity then (some .cohort, rehome)
  else if request.leaves.any fun leave => leave.closeCode = some closeCodePeerDropped ∧
      request.now - leave.time ≤ reserveRehomePeerDroppedMs then (some .peerDropped, rehome)
  else if none ∈ leftRegions then (some .unknownLeaveRegion, rehome)
  else if leftRegions.length > 1 ∨ movedByThisDirector then (some .movedRecently, rehome)
  else if !request.target.bookable ∨ request.target.ceiling = 0 ∨
      (request.target.free : ℚ) < reserveRehomeTargetFreeShare * request.target.ceiling then
    (some .targetRoom, rehome)
  else
    let budget := rehome.refilled request.sourceCellId request.sourceControls request.now
    if budget.tokens < 1 then (some .sourceBudget, rehome.withBudget request.sourceCellId budget)
    else
      (none,
        rehome.withBudget request.sourceCellId { budget with tokens := budget.tokens - 1 })

/-- The booking was not made: the token goes back. -/
def refund (sourceCellId : String) : ReserveRehome :=
  match rehome.budgets.get? sourceCellId with
  | none => rehome
  | some budget =>
    rehome.withBudget sourceCellId { budget with tokens := min 1 (budget.tokens + 1) }

def recordMoved (identity : Identity) (now : Int) : ReserveRehome :=
  let moved := (rehome.moved.delete identity.key).set identity.key now
  { rehome with
    moved :=
      if moved.size > reserveRehomeMovedMax then
        (moved.keys.head?.map moved.delete).getD moved
      else moved }

end ReserveRehome

end OxeeUI.Relay

/-!
## What a placing director remembers and asks

The director's memory beside its seat map: the floors the ledger reconcile raised, the bookings
it made itself, its estimates and its rehome budgets.  Its code runs until it must wait for a
row of the database or for a cell's answer.
-/

namespace OxeeUI.Relay

open OxeeUI.Library

/-! ## Reading the seat map -/

namespace ShadowSeatDirectory

variable (directory : ShadowSeatDirectory)

def seatsOf (identity : Identity) : List Nat :=
  ((directory.hosts.get? identity.key).map JsMap.values).getD []

def seatObjects (seats : List Nat) : List ShadowSeat :=
  seats.filterMap fun object => directory.objects[object]?

def recentlyLeftOf (identity : Identity) (now : Int) : List RecentlyLeftSeat :=
  ((directory.recentlyLeft.get? identity.key).getD []).filter fun entry =>
    now - shadowSeatRecentlyLeftTtlMs < entry.time

def bookingOf (identity : Identity) : Option KnownBooking := directory.bookings.get? identity.key

def isTruthyText (text : Option String) : Bool := text.any fun text => text ≠ ""

/-- Applied state only: what the cell last said its switch is. -/
def admitModeOf (cellId : String) : String :=
  match directory.cells.get? cellId with
  | none => "db"
  | some cursor =>
    if isTruthyText cursor.admitModeEffective then cursor.admitModeEffective.getD ""
    else if cursor.flagsApplied.any fun applied =>
        applied.flags.member "admitMode" = .string "reserve" then "reserve"
    else "db"

def placementModeOf (cellId : String) : String :=
  ((directory.cells.get? cellId).bind (·.admitModeRaw)).getD (directory.admitModeOf cellId)

def isComplete : Bool :=
  !directory.required.isEmpty && directory.required.all fun cellId =>
    ((directory.cells.get? cellId).bind (·.lastAnsweredAt)).isSome

end ShadowSeatDirectory

/-! ## Memory -/

/-- A row of the cell list, as far as placement reads it. -/
structure ListedCell where
  cellId : String
  cellUrl : String
  region : RelayRegion
  general : Option Bool

structure RowFloor where
  epoch : Int
  expiresAt : Int

structure OwnBooking where
  cellId : String
  epoch : Int

structure DirectorMemory where
  directory : ShadowSeatDirectory
  cells : List ListedCell
  rowFloors : JsMap String RowFloor
  ownBookings : JsMap String OwnBooking
  placer : ReservePlacer
  rehome : Option ReserveRehome

def reserveRowFloorTtlMs : Int := 2 * 60 * 60000
def reserveRowFloorMax : Nat := 100000
def ownBookingsMax : Nat := 100000
def reserveStickyRecentMs : Int := 10 * 60000
def reserveStartupGateMs : Int := 30000
def reserveWrongCellRowReadMs : Int := 1000
def activityLeaseMs : Int := 90000

/-- A map without its oldest entry, where it grew past its bound. -/
def withinBound {Value : Type} (bound : Nat) (map : JsMap String Value) : JsMap String Value :=
  if map.size > bound then (map.keys.head?.map map.delete).getD map else map

namespace DirectorMemory

variable (memory : DirectorMemory)

/-- The ledger reconcile demoted this host's seat behind, or level with, a row at `epoch`. -/
def raiseEpochFloor (identity : Identity) (epoch now : Int) : DirectorMemory :=
  let current := memory.rowFloors.get? identity.key
  let raised : RowFloor :=
    ⟨max epoch ((current.map (·.epoch)).getD 0), now + reserveRowFloorTtlMs⟩
  { memory with
    rowFloors := withinBound reserveRowFloorMax
      ((memory.rowFloors.delete identity.key).set identity.key raised) }

def rememberOwnBooking (identity : Identity) (cellId : String) (epoch : Int) :
    DirectorMemory :=
  { memory with
    ownBookings := withinBound ownBookingsMax
      ((memory.ownBookings.delete identity.key).set identity.key ⟨cellId, epoch⟩) }

/-- The floor of a host's row, where it is not expired. -/
def rowFloor (identity : Identity) (now : Int) : Option Int :=
  ((memory.rowFloors.get? identity.key).filter fun floor => now < floor.expiresAt).map (·.epoch)

/-- What `rowFloor` leaves: an expired floor is deleted. -/
def withoutExpiredFloor (identity : Identity) (now : Int) : DirectorMemory :=
  match memory.rowFloors.get? identity.key with
  | none => memory
  | some floor =>
    if now < floor.expiresAt then memory
    else { memory with rowFloors := memory.rowFloors.delete identity.key }

def cellNamed (cellId : String) : Option ListedCell :=
  memory.cells.find? fun cell => cell.cellId = cellId

/-- The cell's own state, without its seats. -/
def cellState (cellId : String) : Option CellCursor := memory.directory.cells.get? cellId

/-- A cell as a placement sees it; a dry run asks every cell that reports a ceiling. -/
def placementCell (dryRun : Bool) (cell : ListedCell) : Option PlacementCell := do
  let state ← memory.cellState cell.cellId
  return {
    cellId := cell.cellId
    region := cell.region
    reserve :=
      if dryRun then state.ceiling.isSome
      else memory.directory.placementModeOf cell.cellId = "reserve"
    general := cell.general = some true ∧ state.status = .live
    draining := state.draining = some true
    polledAt := if state.status = .live then state.polledAt else none
    seats := ((state.units <|> state.reportedSeats).getD 0) - state.bookings.getD 0
    bookings := state.bookings.getD 0
    ceiling := state.ceiling
    intakePerSec := (state.intake.map (·.perSec)).getD 0
    intakeTokens := (state.intake.map (·.tokens)).getD 0 }

def placementCells (dryRun : Bool) : List PlacementCell :=
  memory.cells.filterMap (memory.placementCell dryRun)

def hasReserveCells : Bool :=
  memory.directory.cells.keys.any fun cellId =>
    memory.directory.placementModeOf cellId = "reserve"

def mapIncomplete (startedAt now : Int) : Bool :=
  !memory.directory.isComplete && now - startedAt < reserveStartupGateMs

/-- Whether a reserve cell of the region could take a host. -/
def hasRoom (region : RelayRegion) (candidateAt now : Int) : Bool :=
  (memory.placementCells false).any fun cell =>
    cell.isCandidate region candidateAt && memory.placer.hasSeat cell now

end DirectorMemory

/-! ## Questions -/

structure HostRow where
  cellId : String
  assignmentEpoch : Int

/-- What a cell answers, or that it answers nothing the director can read. -/
structure ReserveAttempt where
  outcome : String
  epoch : Option Int

/-- The director's memory and clock, and whether the database pool waits and the rehome switch is
open. -/
structure Moment where
  memory : DirectorMemory
  now : Int
  databaseBusy : Bool
  switchOpen : Bool

inductive DirectorQuestion
  | look
  | random
  | update (change : DirectorMemory → DirectorMemory)
  /-- One row, within a bound of time when there is one. -/
  | readRow (identity : Identity) (withinMs : Option Int)
  | reserve (cell : ListedCell) (item : ReserveItem)

def DirectorQuestion.Answer : DirectorQuestion → Type
  | .look => Moment
  | .random => ℚ
  | .update _ => Unit
  | .readRow .. => Option (Option HostRow)
  | .reserve .. => ReserveAttempt

abbrev Course (Value : Type) : Type := Asking DirectorQuestion DirectorQuestion.Answer Value

namespace Course

def look : Course Moment := .ask .look .pure
def random : Course ℚ := .ask .random .pure
def update (change : DirectorMemory → DirectorMemory) : Course Unit := .ask (.update change) .pure
def readRow (identity : Identity) (withinMs : Option Int) : Course (Option (Option HostRow)) :=
  .ask (.readRow identity withinMs) .pure
def reserve (cell : ListedCell) (item : ReserveItem) : Course ReserveAttempt :=
  .ask (.reserve cell item) .pure

def estimate (placer : ReservePlacer) : Course Unit :=
  update fun memory => { memory with placer := placer }

end Course

end OxeeUI.Relay
