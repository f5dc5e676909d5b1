import Mathlib.Data.List.Sort
import OxeeUI.Relay.ReserveDirector

/-!
# Placing a host from the director's map

A plan answers from memory, books a seat on a reserve cell, or leaves the host to the database
with offers that book one later.  Every booking is made at an epoch minted above the floor the
plan took when it started.
-/

namespace OxeeUI.Relay

open OxeeUI.Library Course

structure RelayAssignment where
  userId : String
  relayHostId : String
  cellId : String
  cellUrl : String
  assignmentEpoch : Int
  leaseExpiresAt : Int
  region : RelayRegion

def assignmentTo (identity : Identity) (cell : ListedCell) (epoch now : Int) : RelayAssignment where
  userId := identity.userId
  relayHostId := identity.relayHostId
  cellId := cell.cellId
  cellUrl := cell.cellUrl
  assignmentEpoch := epoch
  leaseExpiresAt := now + activityLeaseMs
  region := cell.region

/-- How a placement fails: `ReservePaceError`, or a booked cell that is no longer listed. -/
inductive PlacementError
  | paced (retryAfterSeconds : Int) (drained : Bool)
  | cellUnlisted

abbrev Placed : Type := Except PlacementError (Option RelayAssignment)

/-! ## Placing -/

def reserveItem (identity : Identity) (epoch : Int) (sticky : Bool) : ReserveItem where
  userId := identity.userId
  relayHostId := identity.relayHostId
  epoch := epoch
  ttlMs := cellReserveTtlMs
  sticky := sticky

def pick (cells : List PlacementCell) (region : RelayRegion) (tried : List String) :
    Course (Option PlacementCell) := do
  let moment ← look
  let (candidates, placer) :=
    ReservePlacer.bookable region tried moment.now cells moment.memory.placer
  estimate placer
  if candidates.isEmpty then return none
  let first ← random
  if candidates.length = 1 then return placer.chosen candidates moment.now first 0
  let second ← random
  return placer.chosen candidates moment.now first second

/-- The `reserve` of a placement. -/
def reserveOn (identity : Identity) (cellId : String) (epoch : Int) : Course ReserveAttempt := do
  let moment ← look
  match moment.memory.cellNamed cellId with
  | none => return ⟨"unreachable", none⟩
  | some cell => reserve cell (reserveItem identity epoch false)

def nextEpoch (epoch : Int) (answer : ReserveAttempt) : Int :=
  if answer.outcome = "seated-newer" then answer.epoch.elim epoch fun seated =>
    max epoch (seated + 1)
  else epoch

def fallback (cells : List PlacementCell) (region : RelayRegion) (regionFull : Bool)
    (refused : List String) : Course PlacementResult := do
  let moment ← look
  let (result, placer) := moment.memory.placer.fallback cells region regionFull refused moment.now
  estimate placer
  return result

/-- `place`, with the tries that are left. -/
def placeTries (identity : Identity) (cells : List PlacementCell) (region : RelayRegion)
    (regionFull : Bool) :
    Nat → List String → List String → Int → Course PlacementResult
  | 0, _, refused, _ => fallback cells region regionFull refused
  | left + 1, tried, refused, epoch => do
    match ← pick cells region tried with
    | none => fallback cells region regionFull refused
    | some cell =>
      let counted ← look
      estimate (counted.memory.placer.countBooking cell counted.now)
      let answer ← reserveOn identity cell.cellId epoch
      if answer.outcome = "ok" then return .placed cell.cellId epoch
      let refusal ← look
      let uncounted := refusal.memory.placer.uncountBooking cell counted.now refusal.now
      if answer.outcome = "intake" then
        estimate (uncounted.drain cell refusal.now)
        placeTries identity cells region regionFull left (tried ++ [cell.cellId]) refused
          (nextEpoch epoch answer)
      else
        estimate uncounted
        placeTries identity cells region regionFull left (tried ++ [cell.cellId])
          (refused ++ [cell.cellId]) (nextEpoch epoch answer)

def place (identity : Identity) (cells : List PlacementCell) (region : RelayRegion) (epoch : Int)
    (regionFull : Bool) : Course PlacementResult :=
  placeTries identity cells region regionFull reserveMaxTries [] [] epoch

/-- The regions of `placeFresh` in turn. -/
def placeInRegions (identity : Identity) (placements : List PlacementCell) (epochFloor : Int)
    (regionFull : Bool) (drainedFrom : Option String) : List RelayRegion → Course Placed
  | [] => return .ok none
  | target :: rest => do
    match ← place identity placements target (mintEpoch [epochFloor]) regionFull with
    | .placed cellId epoch =>
      update fun memory => memory.rememberOwnBooking identity cellId epoch
      let moment ← look
      match moment.memory.cellNamed cellId with
      | none => return .error .cellUnlisted
      | some cell => return .ok (some (assignmentTo identity cell epoch moment.now))
    | .pace retryAfterSeconds => return .error (.paced retryAfterSeconds drainedFrom.isSome)
    | .database =>
      -- Database cells in this region take it; a region with none spills.
      if placements.any (·.isDatabaseCell target) then return .ok none
      else placeInRegions identity placements epochFloor regionFull drainedFrom rest

def placeFresh (identity : Identity) (region : RelayRegion) (epochFloor : Int)
    (regionFull : Bool) (drainedFrom : Option String) : Course Placed := do
  let moment ← look
  let placements := moment.memory.placementCells false
  if regionFull then placeInRegions identity placements epochFloor true drainedFrom [region]
  else
    let draw ← random
    if moment.memory.placer.reservePoolShare placements region moment.now ≤ draw then
      return .ok none
    else
      placeInRegions identity placements epochFloor false drainedFrom
        (if region = relayDefaultRegion then [region] else [region, relayDefaultRegion])

/-- Never changes an answer: the reserve it asks for books nothing. -/
def dryRun (region : RelayRegion) : Course Placed := do
  let moment ← look
  let _ ← pick (moment.memory.placementCells true) region []
  return .ok none

/-! ## Offers to the database lane -/

def regionReserve (identity : Identity) (region : RelayRegion) (epochFloor now : Int)
    (drainedFrom : Option String) (moment : Moment) : Option (Course Placed) :=
  if moment.memory.hasRoom region now moment.now then
    some (placeFresh identity region epochFloor true drainedFrom)
  else none

/-- The sooner of two paces, the earlier of them when they are level. -/
def soonerPace (paced : Option (Int × Bool)) (retryAfterSeconds : Int) (drained : Bool) :
    Option (Int × Bool) :=
  match paced with
  | none => some (retryAfterSeconds, drained)
  | some known => if retryAfterSeconds < known.1 then some (retryAfterSeconds, drained) else some known

def spillTo (identity : Identity) (region : RelayRegion) (floor now : Int) (skipOwnRegion : Bool)
    (drainedFrom : Option String) :
    List RelayRegion → Option (Int × Bool) → Course Placed
  | [], none => return .ok none
  | [], some (retryAfterSeconds, drained) => return .error (.paced retryAfterSeconds drained)
  | target :: rest, paced => do
    let moment ← look
    if (skipOwnRegion && target = region) || !moment.memory.hasRoom target now moment.now then
      spillTo identity region floor now skipOwnRegion drainedFrom rest paced
    else
      match ← placeFresh identity target floor true drainedFrom with
      | .ok (some assignment) => return .ok (some assignment)
      | .ok none => spillTo identity region floor now skipOwnRegion drainedFrom rest paced
      | .error .cellUnlisted => return .error .cellUnlisted
      | .error (.paced retryAfterSeconds drained) =>
        spillTo identity region floor now skipOwnRegion drainedFrom rest
          (soonerPace paced retryAfterSeconds drained)

def reserveSpill (identity : Identity) (region : RelayRegion) (epochFloor : Int)
    (drainedFrom : Option String) (skipOwnRegion : Bool) (rowEpoch : Int) : Course Placed := do
  let moment ← look
  spillTo identity region (max epochFloor rowEpoch) moment.now skipOwnRegion drainedFrom
    (region :: relayRegions.filter (· ≠ region)) none

/-! ## Answers from memory -/

structure StickyCandidate where
  cellId : String
  epoch : Int
  incarnation : Option String
  seated : Bool
  joinedAt : Int

/-- Newest epoch and join win.  A seat at or behind a row the reconcile demoted it for is never
answered again. -/
def stickyCandidates (seats : List ShadowSeat) (left : Option RecentlyLeftSeat) (rowFloor : Int) :
    List StickyCandidate :=
  let newest := (seats.map (·.epoch) ++ [(left.map (·.epoch)).getD 0]).foldl max 0
  if newest ≤ rowFloor then []
  else
    let seated := (seats.filter fun seat => seat.state = "active").map fun seat =>
      (⟨seat.cellId, seat.epoch, seat.incarnation, true, seat.joinedAt⟩ : StickyCandidate)
    let rejoining := (left.filter fun entry =>
      entry.closeCode ≠ some closeCodeDraining ∧ entry.closeCode ≠ some closeCodeWrongCell).toList.map
        fun entry => (⟨entry.cellId, entry.epoch, entry.incarnation, false, -1⟩ : StickyCandidate)
    ((seated ++ rejoining).filter fun candidate => candidate.epoch = newest).insertionSort
      fun first second => second.joinedAt ≤ first.joinedAt

structure StickySource where
  candidate : StickyCandidate
  cell : ListedCell
  state : CellCursor
  placement : PlacementCell

/-- A candidate whose cell is listed, and could be picked. -/
def judgeSticky (moment : Moment) (now : Int) (candidate : StickyCandidate) :
    Option StickySource := do
  let cell ← moment.memory.cellNamed candidate.cellId
  let state ← moment.memory.cellState candidate.cellId
  let placement ← (moment.memory.placementCells false).find? fun placement =>
    placement.cellId = candidate.cellId
  if placement.isCandidate cell.region now &&
      (candidate.seated || moment.memory.placer.hasSeat placement moment.now) then
    return ⟨candidate, cell, state, placement⟩
  else none

/-- Same-cell and same-epoch rebind needs no booking unless the restarted cell forgot its seat. -/
def stickyFromMemory (identity : Identity) (now : Int) :
    List StickyCandidate → Course (Option RelayAssignment)
  | [] => return none
  | candidate :: rest => do
    let moment ← look
    match judgeSticky moment now candidate with
    | none => stickyFromMemory identity now rest
    | some source =>
      if candidate.incarnation.isSome && candidate.incarnation ≠ source.state.incarnation then
        let answer ← reserve source.cell (reserveItem identity candidate.epoch true)
        if answer.outcome = "ok" then
          return some (assignmentTo identity source.cell candidate.epoch now)
        else stickyFromMemory identity now rest
      else return some (assignmentTo identity source.cell candidate.epoch now)

/-- Whether a candidate has a seat, and budget as of `budgetAt`. -/
def anyBudget (budgetAt now : Int) : List PlacementCell → ReservePlacer → Bool × ReservePlacer
  | [], placer => (false, placer)
  | cell :: rest, placer =>
    if placer.hasSeat cell now then
      match placer.hasBudget cell budgetAt with
      | (true, refilled) => (true, refilled)
      | (false, refilled) => anyBudget budgetAt now rest refilled
    else anyBudget budgetAt now rest placer

def targetRoom (region : RelayRegion) (now : Int) (moment : Moment) :
    RehomeTargetRoom × ReservePlacer :=
  let candidates := (moment.memory.placementCells false).filter (·.isCandidate region now)
  let placer := moment.memory.placer
  let (bookable, refilled) := anyBudget now moment.now candidates placer
  ({ free := (candidates.map fun cell => placer.free cell moment.now).sum
     ceiling := (candidates.map fun cell => cell.ceiling.getD 0).sum
     bookable := bookable },
    refilled)

def rehomeRequest (identity : Identity) (source : StickySource) (target : RehomeTargetRoom)
    (now : Int) (moment : Moment) : RehomeRequest where
  identity := identity
  sourceCellId := source.cell.cellId
  sourceControls := source.state.reportedControls.getD 0
  leaves := (moment.memory.directory.recentlyLeftOf identity now).map fun leave =>
    ⟨(moment.memory.cellNamed leave.cellId).map (·.region), leave.closeCode, leave.time⟩
  target := target
  now := now
  switchOpen := moment.switchOpen

/-- Change the rehome budgets, where the director rehomes at all. -/
def updateRehome (change : ReserveRehome → ReserveRehome) : Course Unit :=
  update fun memory => { memory with rehome := memory.rehome.map change }

/-- Book a host in its own region where the rules admit it. -/
def rehome (identity : Identity) (region : RelayRegion) (seats : List Nat)
    (left : Option RecentlyLeftSeat) (epochFloor rowFloor now : Int) : Course Placed := do
  let moment ← look
  match moment.memory.rehome with
  | none => return .ok none
  | some rules =>
    if !rules.enabled then return .ok none
    let candidates :=
      stickyCandidates (moment.memory.directory.seatObjects seats) left rowFloor
    match candidates.findSome? (judgeSticky moment now) with
    | none => return .ok none
    | some source =>
      if !source.placement.reserve || source.cell.region = region then return .ok none
      let (target, placer) := targetRoom region now moment
      estimate placer
      let (skip, admitted) := rules.admitRehome (rehomeRequest identity source target now moment)
      updateRehome fun _ => admitted
      if skip.isSome then return .ok none
      match ← placeFresh identity region epochFloor true none with
      | .error .cellUnlisted => return .error .cellUnlisted
      | .ok (some assignment) =>
        updateRehome fun rules => rules.recordMoved identity now
        return .ok (some assignment)
      | .ok none | .error (.paced ..) =>
        updateRehome fun rules => rules.refund source.cell.cellId
        return .ok none

/-! ## Plans -/

inductive ReservePlacementMode
  | off | dryRun | on

structure ReserveSettings where
  mode : ReservePlacementMode
  startedAt : Int

structure PlanRequest where
  reconnect : Bool
  region : RelayRegion
  regionCorrection : Bool
  preferred : Bool

inductive PlanLane
  | sticky | placement | rehome

inductive RetryReason
  | mapIncomplete | database

structure DatabaseOffer where
  epochFloor : Option Int
  placeFresh : Option (Course Placed)
  regionReserve : Option (Course Placed)
  reserveSpill : Option (Bool → Int → Course Placed)

def DatabaseOffer.none : DatabaseOffer := ⟨.none, .none, .none, .none⟩

inductive ReservePlan
  | answer (assignment : RelayAssignment) (lane : PlanLane)
  | retry (retryAfterSeconds : Int) (reason : RetryReason)
  | database (offer : DatabaseOffer)

/-- What a plan reads of its host before it first waits. -/
structure PlanFacts where
  identity : Identity
  request : PlanRequest
  now : Int
  incomplete : Bool
  seats : List Nat
  seatedOn : Option String
  left : Option RecentlyLeftSeat
  rowFloor : Option Int
  drainedFrom : Option String

namespace Moment

variable (moment : Moment) (identity : Identity)

def recentLeavers : List RecentlyLeftSeat :=
  (moment.memory.directory.recentlyLeftOf identity moment.now).filter fun entry =>
    moment.now - entry.time ≤ reserveStickyRecentMs

def lastLeaver : Option RecentlyLeftSeat := (moment.recentLeavers identity).getLast?

def seatsNow : List ShadowSeat :=
  moment.memory.directory.seatObjects (moment.memory.directory.seatsOf identity)

/-- The epochs a plan mints above: of the seats, the last leaver, the booking and the floor. -/
def knownEpochs : List Int :=
  (moment.seatsNow identity).map (·.epoch) ++
    ((moment.lastLeaver identity).map (·.epoch)).toList ++
    ((moment.memory.directory.bookingOf identity).map (·.epoch)).toList ++
    (moment.memory.rowFloor identity moment.now).toList

structure NewestGrant where
  cellId : String
  epoch : Int
  state : Option String

/-- The cell of the host's newest grant, where that cell drains. -/
def drainSource : Option String := do
  let directory := moment.memory.directory
  let grants : List NewestGrant :=
    (moment.seatsNow identity).map (fun seat => ⟨seat.cellId, seat.epoch, some seat.state⟩) ++
      (moment.lastLeaver identity).toList.map (fun left => ⟨left.cellId, left.epoch, none⟩) ++
      (directory.bookingOf identity).toList.map (fun known => ⟨known.cellId, known.epoch, none⟩) ++
      (moment.memory.ownBookings.get? identity.key).toList.map
        (fun own => ⟨own.cellId, own.epoch, none⟩)
  let newest ← grants.foldl (fun newest (entry : NewestGrant) =>
    match newest with
    | none => some entry
    | some known => if entry.epoch > known.epoch then some entry else some known)
    (none : Option NewestGrant)
  let drains := (moment.memory.cellState newest.cellId).any fun state =>
    state.draining = some true
  if newest.state = some "drain-only" || drains then some newest.cellId else none

def planFacts (settings : ReserveSettings) (request : PlanRequest) : PlanFacts where
  identity := identity
  request := request
  now := moment.now
  incomplete := moment.memory.mapIncomplete settings.startedAt moment.now
  seats := moment.memory.directory.seatsOf identity
  seatedOn := (moment.seatsNow identity).head?.map (·.cellId)
  left := moment.lastLeaver identity
  rowFloor := moment.memory.rowFloor identity moment.now
  drainedFrom := moment.drainSource identity

end Moment

/-- `known.length === 0 ? 0 : Math.max(...known)`. -/
def epochFloorOf (known : List Int) : Int :=
  match known with
  | [] => 0
  | first :: rest => rest.foldl max first

/-- The plan of a host whose reply carries a region window bound to its row. -/
def planCorrection (facts : PlanFacts) (known : List Int) (moment : Moment) : ReservePlan :=
  if facts.incomplete then .database .none
  else
    let floor := epochFloorOf known
    let region := facts.request.region
    let spill := reserveSpill facts.identity region floor facts.drainedFrom
    if known.isEmpty then .database { DatabaseOffer.none with reserveSpill := some spill }
    else
      .database { DatabaseOffer.none with
        regionReserve :=
          regionReserve facts.identity region floor facts.now facts.drainedFrom moment
        reserveSpill := some spill }

/-- What the database lane is offered beside its own placement. -/
def freshOffer (facts : PlanFacts) (known : List Int) (moment : Moment) : DatabaseOffer :=
  let floor := epochFloorOf known
  let region := facts.request.region
  { epochFloor := some floor
    placeFresh := some (placeFresh facts.identity region floor false facts.drainedFrom)
    regionReserve := regionReserve facts.identity region floor facts.now facts.drainedFrom moment
    reserveSpill :=
      if facts.incomplete then none
      else some (reserveSpill facts.identity region floor facts.drainedFrom) }

/-- Database cells retain their hosts; reserve cells book only fresh placements. -/
def staysWithDatabase (facts : PlanFacts) (row : Option HostRow) (lastCellId : Option String)
    (moment : Moment) : Bool :=
  let lastOnReserve := lastCellId.any fun cellId =>
    moment.memory.directory.placementModeOf cellId = "reserve"
  !lastOnReserve && (!facts.seats.isEmpty || facts.left.isSome || row.isSome)

/-- The plan past the answers from memory: a fresh placement, or the database with its offers. -/
def planFresh (facts : PlanFacts) (known : List Int) (row : Option HostRow)
    (lastCellId : Option String) : Course (Except PlacementError ReservePlan) := do
  let moment ← look
  if staysWithDatabase facts row lastCellId moment then
    return .ok (.database (freshOffer facts known moment))
  match ← placeFresh facts.identity facts.request.region (epochFloorOf known) false
      facts.drainedFrom with
  | .error failure => return .error failure
  | .ok (some assignment) => return .ok (.answer assignment .placement)
  | .ok none => return .ok (.database { freshOffer facts known moment with placeFresh := none })

def planFromMap (facts : PlanFacts) (known : List Int) (row : Option HostRow)
    (lastCellId : Option String) : Course (Except PlacementError ReservePlan) := do
  let moment ← look
  let pending := lastCellId.any fun cellId =>
    (moment.memory.cellState cellId).any fun state => state.status = .pending
  -- Only a host that may be on an unheard cell waits for it.
  if facts.incomplete && pending then return .ok (.retry 1 .mapIncomplete)
  if facts.incomplete && lastCellId.isNone then
    return .ok (.database { DatabaseOffer.none with epochFloor := some (epochFloorOf known) })
  if facts.request.reconnect then
    let seats := moment.memory.directory.seatObjects facts.seats
    match ← stickyFromMemory facts.identity facts.now
        (stickyCandidates seats facts.left (facts.rowFloor.getD 0)) with
    | some assignment => return .ok (.answer assignment .sticky)
    | none => planFresh facts known row lastCellId
  else planFresh facts known row lastCellId

def planInPlace (facts : PlanFacts) (known : List Int) (row : Option HostRow) :
    Course (Except PlacementError ReservePlan) := do
  if facts.request.regionCorrection then
    let moment ← look
    return .ok (planCorrection facts known moment)
  else
    planFromMap facts known row
      (facts.seatedOn <|> facts.left.map (·.cellId) <|> row.map (·.cellId))

/-- The plan once it has the epochs it mints above. -/
def planKnowing (facts : PlanFacts) (known : List Int) (row : Option HostRow) :
    Course (Except PlacementError ReservePlan) := do
  if facts.request.reconnect && facts.request.preferred && !facts.incomplete &&
      !known.isEmpty then
    match ← rehome facts.identity facts.request.region facts.seats facts.left
        (epochFloorOf known) (facts.rowFloor.getD 0) facts.now with
    | .error failure => return .error failure
    | .ok (some assignment) => return .ok (.answer assignment .rehome)
    | .ok none => planInPlace facts known row
  else planInPlace facts known row

/-- The plan once its row was read, or was not.  Without row or map history the epoch cannot be
minted safely. -/
def planRead (facts : PlanFacts) (known : List Int) :
    Option (Option HostRow) → Course (Except PlacementError ReservePlan)
  | none =>
    if known.isEmpty then return .ok (.retry 2 .database) else planKnowing facts known none
  | some row => planKnowing facts (known ++ (row.map (·.assignmentEpoch)).toList) row

/-- The bound on the read of a row: a host the map has never seen needs it. -/
def rowReadBound (known : List Int) : Option Int :=
  if known.isEmpty then none else some reserveWrongCellRowReadMs

/-- `plan` in mode `on`, from the moment it is called. -/
def planOn (settings : ReserveSettings) (identity : Identity) (request : PlanRequest)
    (moment : Moment) : Course (Except PlacementError ReservePlan) := do
  if !moment.memory.hasReserveCells then return .ok (.database .none)
  let facts := moment.planFacts identity settings request
  let known := moment.knownEpochs identity
  update fun memory => memory.withoutExpiredFloor identity moment.now
  let leftWrongCell := (facts.left.any fun left => left.closeCode = some closeCodeWrongCell) &&
    !moment.databaseBusy
  if (known.isEmpty && !request.regionCorrection) || leftWrongCell then
    let answer ← readRow identity (rowReadBound known)
    planRead facts known answer
  else planKnowing facts known none

def plan (settings : ReserveSettings) (identity : Identity) (request : PlanRequest)
    (moment : Moment) : Course (Except PlacementError ReservePlan) :=
  match settings.mode with
  | .off => return .ok (.database .none)
  | .dryRun =>
    if request.regionCorrection then return .ok (.database .none)
    else
      return .ok (.database { DatabaseOffer.none with placeFresh := some (dryRun request.region) })
  | .on => planOn settings identity request moment

end OxeeUI.Relay
