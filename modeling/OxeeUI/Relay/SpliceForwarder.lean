import Mathlib.Algebra.Order.Ring.Int
import Mathlib.Data.List.Infix

/-!
# Splices

A splice forwards the frames of a client to its host and back.  A frame the target cannot take
is queued against a budget that all splices share; a timer looks at the queue again.
-/

namespace OxeeUI.Relay

namespace AdmissionBudgets

def maxProcessQueuedBytes : Int := 64 * 1024 * 1024
def spliceLowWaterBytes : Int := 64 * 1024
def spliceHighWaterBytes : Int := 256 * 1024
def spliceHardQueuedBytes : Int := 8 * 1024 * 1024 + 256 * 1024
def spliceWedgedTimeoutMs : Int := 10 * 1000

end AdmissionBudgets

namespace RelayCloseCode

def peerDropped : Nat := 4408
def limitExceeded : Nat := 4429

end RelayCloseCode

open AdmissionBudgets

inductive RawData
  | text (data : String)
  | buffer (data : List UInt8)
  | fragments (parts : List (List UInt8))

def frameBytes : RawData → Nat
  | .text data => data.utf8ByteSize
  | .buffer data => data.length
  | .fragments parts => parts.foldl (fun total part => total + part.length) 0

structure Frame where
  data : RawData
  binary : Bool

structure QueuedFrame where
  frame : Frame
  bytes : Nat

structure ProcessQueuedByteBudget where
  queued : Int

namespace ProcessQueuedByteBudget

def reserve (budget : ProcessQueuedByteBudget) (bytes : Int) : Option ProcessQueuedByteBudget :=
  if budget.queued + bytes > maxProcessQueuedBytes then none
  else some { budget with queued := budget.queued + bytes }

def release (budget : ProcessQueuedByteBudget) (bytes : Int) : ProcessQueuedByteBudget :=
  { budget with queued := max 0 (budget.queued - bytes) }

def current (budget : ProcessQueuedByteBudget) : Int := budget.queued

end ProcessQueuedByteBudget

inductive Side
  | client | host
deriving DecidableEq

structure SpliceCloseInfo where
  code : Nat
  reason : String
  trigger : String

structure Direction where
  queue : List QueuedFrame
  queuedBytes : Int
  wedgedSince : Option Int
  /-- Whether the source's transport is paused. -/
  paused : Bool
  /-- The frames the source delivered, oldest first. -/
  received : List Frame
  /-- The frames sent to the target, oldest first. -/
  sent : List Frame

structure SpliceTimer where
  id : Nat
  /-- The direction it flushes. -/
  side : Side
deriving DecidableEq

structure Splice where
  closed : Bool
  timers : List SpliceTimer
  /-- How many timers were created. -/
  created : Nat
  direction : Side → Direction
  forwardedBytes : List Nat
  /-- What each run of `onClosed` was told. -/
  closedWith : List SpliceCloseInfo
  /-- How often `onClose` ran. -/
  onCloseRuns : Nat

structure BudgetedSplice where
  budget : ProcessQueuedByteBudget
  splice : Splice

/-- What the code reads of its sockets and the clock while it handles one event. -/
structure SocketReadings where
  targetOpen : Bool
  sourceOpen : Bool
  /-- The target's `bufferedAmount`, at each of its readings. -/
  bufferedAmount : Nat → Int
  now : Nat → Int

def Direction.new : Direction where
  queue := []
  queuedBytes := 0
  wedgedSince := none
  paused := false
  received := []
  sent := []

def Splice.wired : Splice where
  closed := false
  timers := []
  created := 0
  direction := fun _ => .new
  forwardedBytes := []
  closedWith := []
  onCloseRuns := 0

/-- `errorTrigger`: payload errors are told apart. -/
def errorTrigger (side : Side) (message : String) : String :=
  let name := match side with
    | .client => "client"
    | .host => "host"
  if "max payload".toList <:+: message.toLower.toList then name ++ "-oversize-frame"
  else name ++ "-error"

def closedTrigger : Side → String
  | .client => "client-closed"
  | .host => "host-closed"

namespace BudgetedSplice

def updateDirection (held : BudgetedSplice) (side : Side) (direction : Direction) :
    BudgetedSplice :=
  { held with splice := { held.splice with
      direction := Function.update held.splice.direction side direction } }

def cleanup (side : Side) (held : BudgetedSplice) : BudgetedSplice :=
  let direction := held.splice.direction side
  let released := { held with budget := held.budget.release direction.queuedBytes }
  released.updateDirection side { direction with queuedBytes := 0, queue := [], paused := false }

def close (info : SpliceCloseInfo) (held : BudgetedSplice) : BudgetedSplice :=
  if held.splice.closed then held
  else
    let stopped := { held with splice := { held.splice with closed := true, timers := [] } }
    let cleaned := (stopped.cleanup .client).cleanup .host
    { cleaned with splice := { cleaned.splice with
        closedWith := cleaned.splice.closedWith ++ [info]
        onCloseRuns := cleaned.splice.onCloseRuns + 1 } }

def sendQueued (side : Side) (frame : QueuedFrame) (rest : List QueuedFrame)
    (held : BudgetedSplice) : BudgetedSplice :=
  let direction := held.splice.direction side
  let released := { held with budget := held.budget.release frame.bytes }
  released.updateDirection side { direction with
    queue := rest
    queuedBytes := direction.queuedBytes - frame.bytes
    sent := direction.sent ++ [frame.frame] }

/-- The loop of `flush`, over the queue. -/
def drain (side : Side) (bufferedAmount : Nat → Int) :
    List QueuedFrame → Nat → BudgetedSplice → BudgetedSplice
  | [], _, held => held
  | frame :: rest, reading, held =>
    if bufferedAmount reading ≤ spliceLowWaterBytes then
      drain side bufferedAmount rest (reading + 1) (held.sendQueued side frame rest)
    else held

def startTimer (side : Side) (held : BudgetedSplice) : BudgetedSplice :=
  { held with splice := { held.splice with
      timers := held.splice.timers ++ [⟨held.splice.created, side⟩]
      created := held.splice.created + 1 } }

def isWedged (wedgedSince : Option Int) (now : Int) : Bool :=
  match wedgedSince with
  | none => false
  | some since => now - since ≥ spliceWedgedTimeoutMs

/-- What `flush` does about the frames that stay. -/
def settle (side : Side) (now : Int) (held : BudgetedSplice) : BudgetedSplice :=
  let direction := held.splice.direction side
  if direction.queue = [] then
    held.updateDirection side { direction with wedgedSince := none, paused := false }
  else if isWedged direction.wedgedSince now then
    held.close ⟨RelayCloseCode.limitExceeded, "wedged relay link", "wedged"⟩
  else held.startTimer side

def flush (side : Side) (targetOpen sourceOpen : Bool) (bufferedAmount : Nat → Int) (now : Int)
    (held : BudgetedSplice) : BudgetedSplice :=
  if held.splice.closed then held
  else if targetOpen = false ∨ sourceOpen = false then
    held.close ⟨RelayCloseCode.peerDropped, "peer connection dropped", "peer-gone"⟩
  else (held.drain side bufferedAmount (held.splice.direction side).queue 0).settle side now

/-- The source delivered a frame, and the splice is closed. -/
def receive (side : Side) (frame : Frame) (held : BudgetedSplice) : BudgetedSplice :=
  let direction := held.splice.direction side
  held.updateDirection side { direction with received := direction.received ++ [frame] }

def forwarded (bytes : Nat) (held : BudgetedSplice) : BudgetedSplice :=
  { held with splice := { held.splice with
      forwardedBytes := held.splice.forwardedBytes ++ [bytes] } }

def sendNow (side : Side) (frame : Frame) (held : BudgetedSplice) : BudgetedSplice :=
  let direction := held.splice.direction side
  held.updateDirection side { direction with
    sent := direction.sent ++ [frame]
    received := direction.received ++ [frame] }

/-- The frame joins the queue, its bytes reserved. -/
def enqueue (side : Side) (frame : QueuedFrame) (now : Int) (budget : ProcessQueuedByteBudget)
    (held : BudgetedSplice) : BudgetedSplice :=
  let direction := held.splice.direction side
  { held with budget := budget }.updateDirection side { direction with
    queue := direction.queue ++ [frame]
    queuedBytes := direction.queuedBytes + frame.bytes
    wedgedSince := some (direction.wedgedSince.getD now)
    paused := true
    received := direction.received ++ [frame.frame] }

/-- The reservation of a frame's bytes, in the direction and in the process. -/
def reserve (side : Side) (bytes : Nat) (held : BudgetedSplice) :
    Option ProcessQueuedByteBudget :=
  if (held.splice.direction side).queuedBytes + bytes > spliceHardQueuedBytes then none
  else held.budget.reserve bytes

def onMessage (side : Side) (frame : Frame) (readings : SocketReadings) (held : BudgetedSplice) :
    BudgetedSplice :=
  if held.splice.closed then held.receive side frame
  else
    let bytes := frameBytes frame.data
    if (held.splice.direction side).queue = [] ∧ readings.targetOpen = true ∧
        readings.bufferedAmount 0 ≤ spliceHighWaterBytes then
      (held.sendNow side frame).forwarded bytes
    else
      match held.reserve side bytes with
      | none =>
        (held.close ⟨RelayCloseCode.limitExceeded, "relay queue limit exceeded",
          "queue-limit"⟩).receive side frame
      | some budget =>
        let queued := (held.enqueue side ⟨frame, bytes⟩ (readings.now 0) budget).forwarded bytes
        if (queued.splice.direction side).queue.length = 1 then
          queued.flush side readings.targetOpen readings.sourceOpen
            (fun reading => readings.bufferedAmount (reading + 1)) (readings.now 1)
        else queued

def onTimer (id : Nat) (readings : SocketReadings) (held : BudgetedSplice) : BudgetedSplice :=
  match held.splice.timers.find? (·.id = id) with
  | none => held
  | some timer =>
    let fired := { held with splice := { held.splice with
      timers := held.splice.timers.erase timer } }
    fired.flush timer.side readings.targetOpen readings.sourceOpen readings.bufferedAmount
      (readings.now 0)

end BudgetedSplice

inductive SpliceEvent
  | message (side : Side) (frame : Frame) (readings : SocketReadings)
  | timer (id : Nat) (readings : SocketReadings)
  | closed (side : Side)
  | failed (side : Side) (message : String)
  /-- The returned function is called. -/
  | close (code : Nat) (reason : String)

def BudgetedSplice.handle (held : BudgetedSplice) : SpliceEvent → BudgetedSplice
  | .message side frame readings => held.onMessage side frame readings
  | .timer id readings => held.onTimer id readings
  | .closed side =>
    held.close ⟨RelayCloseCode.peerDropped, "peer connection dropped", closedTrigger side⟩
  | .failed side message =>
    held.close ⟨RelayCloseCode.peerDropped, "peer connection dropped", errorTrigger side message⟩
  | .close code reason => held.close ⟨code, reason, "external"⟩

inductive ForwarderEvent
  /-- `wireSplice` -/
  | wire
  | splice (handle : Nat) (event : SpliceEvent)

/-- The splices that share a budget, open or closed, in the order they were wired. -/
structure SpliceForwarder where
  budget : ProcessQueuedByteBudget
  splices : List Splice

namespace SpliceForwarder

def new : SpliceForwarder where
  budget := ⟨0⟩
  splices := []

def step (forwarder : SpliceForwarder) : ForwarderEvent → SpliceForwarder
  | .wire => { forwarder with splices := forwarder.splices ++ [.wired] }
  | .splice handle event =>
    match forwarder.splices[handle]? with
    | none => forwarder
    | some splice =>
      let after := (BudgetedSplice.mk forwarder.budget splice).handle event
      { budget := after.budget, splices := forwarder.splices.set handle after.splice }

def after (events : List ForwarderEvent) : SpliceForwarder := events.foldl step new

end SpliceForwarder

end OxeeUI.Relay
