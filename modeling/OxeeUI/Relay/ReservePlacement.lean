import Mathlib.Algebra.Order.Field.Rat
import Mathlib.Data.Rat.Floor
import OxeeUI.Library.JsMap

/-!
# What a director estimates of its cells

A director places hosts from its own map of the cells.  It counts the bookings it made itself
since the cell's last poll, and takes its share of the cell's intake.  The cell decides.
-/

namespace OxeeUI.Relay

open OxeeUI.Library

/-- `RELAY_REGIONS`. -/
inductive RelayRegion
  | usCentral1 | asiaEast2
deriving DecidableEq

def relayRegions : List RelayRegion := [.usCentral1, .asiaEast2]
def relayDefaultRegion : RelayRegion := .usCentral1

def reserveMaxTries : Nat := 3
def reserveCellFreshMs : Int := 3000
def reserveDirectorShare : ℚ := 5
def reservePaceMinSeconds : Int := 1
def reservePaceMaxSeconds : Int := 10
def cellReserveTtlMs : Int := 30000
def cellIntakeBurst : ℚ := 20
def ownBookingsCounted : Nat := 1000

structure PlacementCell where
  cellId : String
  region : RelayRegion
  reserve : Bool
  general : Bool
  draining : Bool
  polledAt : Option Int
  seats : Nat
  bookings : Nat
  ceiling : Option Nat
  intakePerSec : ℚ
  intakeTokens : ℚ
deriving DecidableEq

structure Estimate where
  tokens : ℚ
  refilledAt : Int
  ownBookings : List Int

structure ReservePlacer where
  estimates : JsMap String Estimate
  share : ℚ

inductive PlacementResult
  | placed (cellId : String) (epoch : Int)
  | database
  | pace (retryAfterSeconds : Int)

/-- `mintEpoch`. -/
def mintEpoch (knownEpochs : List Int) : Int := knownEpochs.foldl max 0 + 1

namespace PlacementCell

def isCandidate (cell : PlacementCell) (region : RelayRegion) (now : Int) : Bool :=
  cell.reserve && cell.region == region && cell.general && !cell.draining &&
    cell.ceiling.isSome && cell.polledAt.any fun polledAt => now - polledAt ≤ reserveCellFreshMs

/-- A cell of the database lane that could take a host of the region. -/
def isDatabaseCell (cell : PlacementCell) (region : RelayRegion) : Bool :=
  !cell.reserve && cell.region == region && cell.general && !cell.draining

end PlacementCell

namespace ReservePlacer

variable (placer : ReservePlacer)

def new : ReservePlacer := ⟨.empty, reserveDirectorShare⟩

def ownBookingsSince (cell : PlacementCell) (now : Int) : Nat :=
  match placer.estimates.get? cell.cellId with
  | none => 0
  | some estimate =>
    (estimate.ownBookings.filter fun time =>
      (cell.polledAt.all fun since => since ≤ time) && now - cellReserveTtlMs < time).length

def load (cell : PlacementCell) (now : Int) : Nat :=
  cell.seats + cell.bookings + placer.ownBookingsSince cell now

def free (cell : PlacementCell) (now : Int) : Nat :=
  match cell.ceiling with
  | none => 0
  | some ceiling => ceiling - placer.load cell now

def hasSeat (cell : PlacementCell) (now : Int) : Bool :=
  cell.ceiling.any fun ceiling => placer.load cell now < ceiling

def ratePerSec (cell : PlacementCell) : ℚ := cell.intakePerSec / placer.share

def burst : ℚ := max 1 (cellIntakeBurst / placer.share)

/-- What `refill` makes of the cell's estimate; a restarted director starts empty. -/
def refilled (cell : PlacementCell) (now : Int) : Estimate :=
  let estimate := (placer.estimates.get? cell.cellId).getD ⟨0, now, []⟩
  let elapsed : ℚ := (max 0 (now - estimate.refilledAt) : Int) / 1000
  { estimate with
    tokens := min placer.burst (estimate.tokens + elapsed * placer.ratePerSec cell)
    refilledAt := now }

def withEstimate (cell : PlacementCell) (estimate : Estimate) : ReservePlacer :=
  { placer with estimates := placer.estimates.set cell.cellId estimate }

def refill (cell : PlacementCell) (now : Int) : ReservePlacer :=
  placer.withEstimate cell (placer.refilled cell now)

/-- `hasBudget`, with the refill it makes. -/
def hasBudget (cell : PlacementCell) (now : Int) : Bool × ReservePlacer :=
  (1 ≤ (placer.refilled cell now).tokens, placer.refill cell now)

def countBooking (cell : PlacementCell) (now : Int) : ReservePlacer :=
  let estimate := placer.refilled cell now
  let ownBookings := estimate.ownBookings ++ [now]
  placer.withEstimate cell
    { estimate with
      tokens := max 0 (estimate.tokens - 1)
      ownBookings :=
        if ownBookings.length > ownBookingsCounted then ownBookings.tail else ownBookings }

/-- The list without the last of its entries that is `time`. -/
def eraseLast (time : Int) (times : List Int) : List Int := (times.reverse.erase time).reverse

/-- A refusal other than `intake` spent no token on the cell. -/
def uncountBooking (cell : PlacementCell) (time now : Int) : ReservePlacer :=
  let estimate := placer.refilled cell now
  placer.withEstimate cell
    { estimate with
      tokens := min placer.burst (estimate.tokens + 1)
      ownBookings := eraseLast time estimate.ownBookings }

def drain (cell : PlacementCell) (now : Int) : ReservePlacer :=
  placer.withEstimate cell { placer.refilled cell now with tokens := 0 }

/-- The candidates of `pick`: untried, with an estimated seat and budget. -/
def bookable (region : RelayRegion) (tried : List String) (now : Int) :
    List PlacementCell → ReservePlacer → List PlacementCell × ReservePlacer
  | [], placer => ([], placer)
  | cell :: rest, placer =>
    if cell.cellId ∉ tried ∧ cell.isCandidate region now ∧ placer.hasSeat cell now then
      let (budget, refilled) := placer.hasBudget cell now
      let (cells, placer) := bookable region tried now rest refilled
      (if budget then cell :: cells else cells, placer)
    else bookable region tried now rest placer

/-- `load / ceiling`, of a cell with a ceiling. -/
def ratio (cell : PlacementCell) (now : Int) : ℚ :=
  (placer.load cell now : ℚ) / (cell.ceiling.getD 0 : ℚ)

/-- The power of two choices: the second drawn cell stands for the last when it is the first. -/
def chosen (candidates : List PlacementCell) (now : Int) (firstDraw secondDraw : ℚ) :
    Option PlacementCell := do
  let count := candidates.length
  let first ← candidates[(firstDraw * count).floor.toNat]?
  if count = 1 then return first
  let drawn ← candidates[(secondDraw * (count - 1 : Nat)).floor.toNat]?
  let second ← if drawn = first then candidates.getLast? else some drawn
  return if placer.ratio second now < placer.ratio first now then second else first

/-- The shortest wait for an intake token of a cell that could still take the host, with the
refills the look takes. -/
def shortestWait (region : RelayRegion) (refused : List String) (now : Int) :
    List PlacementCell → Option ℚ → ReservePlacer → Option ℚ × ReservePlacer
  | [], refillMs, placer => (refillMs, placer)
  | cell :: rest, refillMs, placer =>
    if cell.cellId ∈ refused ∨ ¬(cell.isCandidate region now ∧ placer.hasSeat cell now) then
      shortestWait region refused now rest refillMs placer
    else
      let refilled := placer.refill cell now
      let rate := refilled.ratePerSec cell
      if rate ≤ 0 then shortestWait region refused now rest refillMs refilled
      else
        let waitMs := max 0 (1 - (placer.refilled cell now).tokens) / rate * 1000
        shortestWait region refused now rest
          (some (refillMs.elim waitMs fun shortest => min shortest waitMs)) refilled

def fallback (cells : List PlacementCell) (region : RelayRegion) (regionFull : Bool)
    (refused : List String) (now : Int) : PlacementResult × ReservePlacer :=
  if !regionFull && cells.any (·.isDatabaseCell region) then (.database, placer)
  else
    match shortestWait region refused now cells none placer with
    | (none, placer) => (.database, placer)
    | (some refillMs, placer) =>
      (.pace (min reservePaceMaxSeconds (max reservePaceMinSeconds (refillMs / 1000).ceil)),
        placer)

/-- The free room of the reserve cells and of the database cells of a region; none when a
database cell has no ceiling. -/
def freeRoom (region : RelayRegion) (now : Int) :
    List PlacementCell → Option (Nat × Nat)
  | [] => some (0, 0)
  | cell :: rest => do
    if cell.region ≠ region ∨ !cell.general ∨ cell.draining then freeRoom region now rest
    else if cell.reserve then
      let (reserve, database) ← freeRoom region now rest
      let room := if cell.isCandidate region now then placer.free cell now else 0
      return (reserve + room, database)
    else
      let ceiling ← cell.ceiling
      let (reserve, database) ← freeRoom region now rest
      return (reserve, database + (ceiling - cell.seats))

def reservePoolShare (cells : List PlacementCell) (region : RelayRegion) (now : Int) : ℚ :=
  match placer.freeRoom region now cells with
  | none => 0
  | some (reserve, database) =>
    if reserve + database = 0 then 0 else (reserve : ℚ) / ((reserve + database : Nat) : ℚ)

end ReservePlacer

theorem le_foldl_max (epochs : List Int) (start : Int) : start ≤ epochs.foldl max start := by
  induction epochs generalizing start with
  | nil => exact le_refl _
  | cons first rest ih => exact le_trans (le_max_left ..) (ih _)

theorem mem_le_foldl_max {epochs : List Int} {epoch : Int} (member : epoch ∈ epochs)
    (start : Int) : epoch ≤ epochs.foldl max start := by
  induction epochs generalizing start with
  | nil => cases member
  | cons first rest ih =>
    rcases List.mem_cons.mp member with rfl | later
    · exact le_trans (le_max_right ..) (le_foldl_max rest _)
    · exact ih later _

theorem lt_mintEpoch {knownEpochs : List Int} {epoch : Int} (known : epoch ∈ knownEpochs) :
    epoch < mintEpoch knownEpochs :=
  Int.lt_add_one_of_le (mem_le_foldl_max known 0)

theorem mintEpoch_pos (knownEpochs : List Int) : 0 < mintEpoch knownEpochs :=
  Int.lt_add_one_of_le (le_foldl_max knownEpochs 0)

end OxeeUI.Relay
