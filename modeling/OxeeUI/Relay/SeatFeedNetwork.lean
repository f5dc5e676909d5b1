import OxeeUI.Library.LogReader
import OxeeUI.Relay.ShadowSeatDirectory

/-!
# The seat log of a cell

A cell process logs the joins and leaves of its hosts.  A ring keeps the newest changes, and the
seats they amount to answer a reader that asks for older ones.
-/

namespace OxeeUI.Relay

open OxeeUI.Library

inductive CellSeatState
  | active | drainOnly

def CellSeatState.text : CellSeatState → String
  | .active => "active"
  | .drainOnly => "drain-only"

inductive CellSeatChangeKind
  | join | leave | drainOnly | active | reserve
deriving DecidableEq, Inhabited

def CellSeatChangeKind.text : CellSeatChangeKind → String
  | .join => "join"
  | .leave => "leave"
  | .drainOnly => "drain-only"
  | .active => "active"
  | .reserve => "reserve"

structure CellSeatChange where
  kind : CellSeatChangeKind
  userId : String
  relayHostId : String
  epoch : Int
  generation : Int
  state : Option CellSeatState
  closeCode : Option Nat
  reservedBy : Option String
  time : Int
deriving Inhabited

structure NumberedSeatChange extends CellSeatChange where
  seq : Nat

structure CellSeat where
  userId : String
  relayHostId : String
  epoch : Int
  generation : Int
  state : CellSeatState
  joinedAt : Int

structure RecentlyLeftCellSeat where
  userId : String
  relayHostId : String
  epoch : Int
  closeCode : Option Nat
  time : Int

inductive CellSeatPage
  | changes (seq : Nat) (changes : List (Option NumberedSeatChange)) (more : Bool)
  | full (seq : Nat) (seats : List CellSeat) (recentlyLeft : List RecentlyLeftCellSeat)

def cellSeatFeedPageMax : Nat := 2000
def cellRecentSeatMs : Int := 10 * 60000
def cellRecentSeatMax : Nat := 20000

structure CellSeatLog where
  capacity : Nat
  ring : List (Option NumberedSeatChange)
  /-- By `JSON.stringify` of user and host, which tells the pairs apart. -/
  seats : JsMap (String × String) CellSeat
  recent : JsMap (String × String) RecentlyLeftCellSeat
  headSeq : Nat

namespace CellSeatLog

def new (capacity : Nat) : CellSeatLog where
  capacity := capacity
  ring := List.replicate capacity none
  seats := .empty
  recent := .empty
  headSeq := 0

/-- The oldest leavers are forgotten, up to the first that is recent within the bound. -/
def forgetLeft (cutoff : Int) : List ((String × String) × RecentlyLeftCellSeat) →
    JsMap (String × String) RecentlyLeftCellSeat → JsMap (String × String) RecentlyLeftCellSeat
  | [], recent => recent
  | (oldestKey, oldest) :: rest, recent =>
    if recent.size ≤ cellRecentSeatMax ∧ oldest.time > cutoff then recent
    else forgetLeft cutoff rest (recent.delete oldestKey)

def rememberLeft (log : CellSeatLog) (key : String × String) (entry : RecentlyLeftCellSeat) :
    CellSeatLog :=
  let recent := (log.recent.delete key).set key entry
  { log with recent := forgetLeft (entry.time - cellRecentSeatMs) recent.entries recent }

def applyToSeats (log : CellSeatLog) (change : CellSeatChange) : CellSeatLog :=
  if change.kind = .reserve then log
  else
    let key := (change.userId, change.relayHostId)
    let seat := log.seats.get? key
    if seat.any fun seat => change.generation < seat.generation then log
    else
      match change.kind, seat with
      | .join, _ =>
        { log with
          recent := log.recent.delete key
          seats := log.seats.set key
            { userId := change.userId
              relayHostId := change.relayHostId
              epoch := change.epoch
              generation := change.generation
              state := change.state.getD .active
              joinedAt := change.time } }
      | .leave, some seat =>
        { log with seats := log.seats.delete key }.rememberLeft key
          { userId := change.userId
            relayHostId := change.relayHostId
            epoch := seat.epoch
            closeCode := change.closeCode
            time := change.time }
      | .active, some seat => { log with seats := log.seats.set key { seat with state := .active } }
      | .drainOnly, some seat =>
        { log with seats := log.seats.set key { seat with state := .drainOnly } }
      | _, _ => log

def append (log : CellSeatLog) (change : CellSeatChange) : CellSeatLog :=
  let seq := log.headSeq + 1
  { log with
    headSeq := seq
    ring := log.ring.set (seq % log.capacity) (some { change with seq := seq }) }.applyToSeats change

/-- `ring[seq % capacity]` -/
def changeAt (log : CellSeatLog) (seq : Nat) : Option NumberedSeatChange :=
  (log.ring[seq % log.capacity]?).join

def recentlyLeft (log : CellSeatLog) (now : Int) : List RecentlyLeftCellSeat :=
  let live := log.recent.values.filter fun entry => entry.time > now - cellRecentSeatMs
  live.drop (live.length - cellSeatFeedPageMax)

/-- The whole map, for a reader without a cursor the ring reaches. -/
def snapshot (log : CellSeatLog) (now : Int) : CellSeatPage :=
  .full log.headSeq log.seats.values (log.recentlyLeft now)

def read (log : CellSeatLog) (now : Int) (sinceSeq : Option Nat) : CellSeatPage :=
  let oldestSeq := max 1 (log.headSeq + 1 - log.capacity)
  match sinceSeq with
  | none => log.snapshot now
  | some since =>
    if since > log.headSeq ∨ since < oldestSeq - 1 then log.snapshot now
    else
      let lastSeq := min log.headSeq (since + cellSeatFeedPageMax)
      .changes lastSeq ((List.range' (since + 1) (lastSeq - since)).map log.changeAt)
        (lastSeq < log.headSeq)

end CellSeatLog

end OxeeUI.Relay

/-!
## Cells and the director that polls them

A cell is a sequence of processes, each with an incarnation and a log of its own.  Polls and
replies may be delayed, repeated, reordered and lost: whatever was once sent may arrive at any
time, or never.
-/

namespace OxeeUI.Relay

open OxeeUI.Library

structure CellProcess where
  incarnation : String
  /-- The calls of `append`, oldest first. -/
  appended : List CellSeatChange

def CellProcess.logAt (capacity : Nat) (process : CellProcess) (seq : Nat) : CellSeatLog :=
  stateAt CellSeatLog.append (.new capacity) process.appended seq

def CellProcess.log (capacity : Nat) (process : CellProcess) : CellSeatLog :=
  process.appended.foldl CellSeatLog.append (.new capacity)

/-! ## What a cell sends -/

def NumberedSeatChange.toFeed (change : NumberedSeatChange) : SeatFeedChange where
  seq := change.seq
  kind := change.kind.text
  userId := change.userId
  relayHostId := change.relayHostId
  epoch := change.epoch
  generation := change.generation
  state := change.state.map CellSeatState.text
  closeCode := change.closeCode
  reservedBy := change.reservedBy
  time := change.time

def CellSeat.toFeed (seat : CellSeat) : SeatFeedSeat where
  userId := seat.userId
  relayHostId := seat.relayHostId
  epoch := seat.epoch
  generation := seat.generation
  state := seat.state.text
  joinedAt := seat.joinedAt

def RecentlyLeftCellSeat.toFeed (left : RecentlyLeftCellSeat) : SeatFeedLeaver where
  userId := left.userId
  relayHostId := left.relayHostId
  epoch := left.epoch
  closeCode := left.closeCode
  time := left.time

/-- The page of a reply, with what else the cell reports; none where the director's schema
refuses it. -/
def SeatFeedResponse.withPage (reports : SeatFeedResponse) (cellId incarnation : String) :
    CellSeatPage → Option SeatFeedResponse
  | .full seq seats recentlyLeft =>
    some { reports with
      cellId := cellId
      incarnation := incarnation
      seq := seq
      changes := none
      full := some (seats.map CellSeat.toFeed)
      recentlyLeft := some (recentlyLeft.map RecentlyLeftCellSeat.toFeed) }
  | .changes seq changes _ =>
    (changes.mapM id).map fun present =>
      { reports with
        cellId := cellId
        incarnation := incarnation
        seq := seq
        changes := some (present.map NumberedSeatChange.toFeed)
        full := none
        recentlyLeft := none }

/-! ## The network -/

structure SeatPoll where
  cellId : String
  since : Option (String × Nat)

structure SeatFeedNetwork where
  /-- The processes of each cell; the last one runs. -/
  cells : JsMap String (List CellProcess)
  directory : ShadowSeatDirectory
  /-- The polls sent. -/
  polls : List SeatPoll
  /-- The replies sent, none for one the schema refuses. -/
  replies : List (Option SeatFeedResponse)

inductive SeatFeedEvent
  /-- A cell starts another process. -/
  | restart (cellId incarnation : String)
  | append (cellId : String) (change : CellSeatChange)
  | setCells (cellIds required : List String)
  | poll (cellId : String)
  /-- The cell's process answers a poll. -/
  | answer (poll : Nat) (now : Int) (reports : SeatFeedResponse)
  | deliver (reply : Nat) (cellId : String) (now polledAt : Int)
  | markNoFeed (cellId : String) (now : Int) (runtimeIncarnation : Option String)
  | fail (cellId reason : String)

namespace SeatFeedNetwork

def new : SeatFeedNetwork where
  cells := .empty
  directory := .new
  polls := []
  replies := []

def processes (network : SeatFeedNetwork) (cellId : String) : List CellProcess :=
  (network.cells.get? cellId).getD []

/-- A process has an incarnation no process of its cell had before. -/
def restart (network : SeatFeedNetwork) (cellId incarnation : String) : SeatFeedNetwork :=
  let processes := network.processes cellId
  if incarnation ∈ processes.map CellProcess.incarnation then network
  else
    { network with cells := network.cells.set cellId (processes ++ [⟨incarnation, []⟩]) }

def append (network : SeatFeedNetwork) (cellId : String) (change : CellSeatChange) :
    SeatFeedNetwork :=
  match (network.processes cellId).getLast? with
  | none => network
  | some process =>
    { network with
      cells := network.cells.set cellId ((network.processes cellId).dropLast ++
        [{ process with appended := process.appended ++ [change] }]) }

def cursorFor (incarnation : String) : Option (String × Nat) → Option Nat
  | none => none
  | some (other, seq) => if other = incarnation then some seq else none

def answer (capacity : Nat) (network : SeatFeedNetwork) (poll : Nat) (now : Int)
    (reports : SeatFeedResponse) : SeatFeedNetwork :=
  match network.polls[poll]? with
  | none => network
  | some poll =>
    match (network.processes poll.cellId).getLast? with
    | none => network
    | some process =>
      let page := (process.log capacity).read now (cursorFor process.incarnation poll.since)
      { network with
        replies := network.replies ++
          [reports.withPage poll.cellId process.incarnation page] }

def deliver (network : SeatFeedNetwork) (reply : Nat) (cellId : String) (now polledAt : Int) :
    SeatFeedNetwork :=
  match network.replies[reply]? with
  | none => network
  | some none => { network with directory := network.directory.fail cellId "malformed" }
  | some (some response) =>
    { network with directory := network.directory.apply cellId response now polledAt }

def step (capacity : Nat) (network : SeatFeedNetwork) : SeatFeedEvent → SeatFeedNetwork
  | .restart cellId incarnation => network.restart cellId incarnation
  | .append cellId change => network.append cellId change
  | .setCells cellIds required =>
    { network with directory := network.directory.setCells cellIds required }
  | .poll cellId =>
    { network with polls := network.polls ++ [⟨cellId, network.directory.since cellId⟩] }
  | .answer poll now reports => network.answer capacity poll now reports
  | .deliver reply cellId now polledAt => network.deliver reply cellId now polledAt
  | .markNoFeed cellId now runtimeIncarnation =>
    { network with directory := network.directory.markNoFeed cellId now runtimeIncarnation }
  | .fail cellId reason => { network with directory := network.directory.fail cellId reason }

def after (capacity : Nat) (events : List SeatFeedEvent) : SeatFeedNetwork :=
  events.foldl (step capacity) new

end SeatFeedNetwork

end OxeeUI.Relay
