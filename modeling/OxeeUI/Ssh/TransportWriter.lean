import OxeeUI.Ssh.WriterLaneScheduler
import Mathlib.Algebra.Ring.Int.Defs

/-!
# The multiplexer transport writer

The writer calls out of itself all the time: to the transport, to the callbacks
of its entries, to the listeners for saturation and failure.  Whatever is called
may call the writer again before it returns.  So the writer is a machine with a
stack: of what is left to do, and of the calls outside that have not returned.
Code between two such calls runs without interruption.
-/

namespace OxeeUI.Ssh

inductive WriteRefusalReason
  | transportDisposed
  | transportQueueFull
  | transportRejectedBeforeHandoff
  deriving DecidableEq

inductive WriteAmbiguityReason
  | transportSettlementLost
  deriving DecidableEq

inductive MultiplexerWriteSettlement
  | accepted
  | refused (reason : WriteRefusalReason) (error : String)
  | unverifiable (reason : WriteAmbiguityReason) (error : String)
  deriving DecidableEq

inductive MultiplexerTransportWriteResult
  | ok
  | error (error : String)

def MultiplexerTransportWriteResult.settlement :
    MultiplexerTransportWriteResult → MultiplexerWriteSettlement
  | .ok => .accepted
  | .error message => .refused .transportRejectedBeforeHandoff message

def multiplexerOrdinaryQueueMaxBytes : ℕ := 2 * 1024 * 1024
def headerLength : ℕ := 13
def maxMessageSize : ℕ := 16 * 1024 * 1024
def multiplexerControlReserveBytes : ℕ := maxMessageSize + headerLength
def ordinaryQueueMaxFrames : ℕ := 2048
def controlQueueMaxFrames : ℕ := 512

structure WriterEntry where
  /-- The length of the data. -/
  bytes : ℕ
  lane : MultiplexerWriterLane
  settled : Bool
  /-- What its callback was run with, run by run. -/
  reports : List MultiplexerWriteSettlement

/-- One call of `transport.write` with the locals its callback closes over. -/
structure TransportWrite where
  entry : ℕ
  callbackResult : Option MultiplexerWriteSettlement
  returned : Bool

structure MultiplexerTransport where
  /-- It can report drains. -/
  onDrain : Bool
  /-- Its `onDrain` returns a function that removes the listener. -/
  removesDrainListener : Bool
  supportsWriteSettlement : Bool

inductive OutsideCall
  | write (write : ℕ)
  | settled (entry : ℕ) (result : MultiplexerWriteSettlement)
  /-- The callback of an enqueue that admitted nothing. -/
  | turnedAway (result : MultiplexerWriteSettlement)
  | saturationChange (saturated : Bool)
  | failure (error : String)
  | removeDrainListener
  deriving DecidableEq

/-- What is left to do when the call above it returns. -/
inductive WriterTask
  | outside (call : OutsideCall)
  | pump
  | pumpLoop
  /-- The rest of `writeEntry` after a write was refused for now. -/
  | afterSaturation (write : ℕ)
  | useCallbackResult (write : ℕ)
  | handleWriteSettlement (entry : ℕ) (result : MultiplexerWriteSettlement)
  | release (entry : ℕ) (result : MultiplexerWriteSettlement)
  | fail (error : String)
  | disposeQueued (error : String)
  | disposeInFlight (error : String)
  | settleDrained
  | clearSettleOnDrain
  deriving DecidableEq

structure TransportWriter where
  /-- The entries by number, in the order they were admitted. -/
  entries : ℕ → WriterEntry
  admitted : ℕ
  /-- The calls of `transport.write`, in order. -/
  writes : ℕ → TransportWrite
  started : ℕ
  scheduler : WriterLaneScheduler ℕ
  inFlight : List ℕ
  settleOnDrain : List ℕ
  ordinaryBytes : ℤ
  controlBytes : ℤ
  ordinaryFrames : ℤ
  controlFrames : ℤ
  saturated : Bool
  writing : Bool
  drainObservedDuringWrite : Bool
  pumping : Bool
  closed : Bool
  livenessOutstanding : Bool
  removeDrainListener : Bool

/-- `Set.add`, which keeps the order of insertion. -/
def addMember (members : List ℕ) (member : ℕ) : List ℕ :=
  if member ∈ members then members else members ++ [member]

def deleteMember (members : List ℕ) (member : ℕ) : List ℕ := members.filter (· ≠ member)

namespace TransportWriter

def start (transport : MultiplexerTransport) : TransportWriter where
  entries := fun _ => ⟨0, .ordinary, true, []⟩
  admitted := 0
  writes := fun _ => ⟨0, none, true⟩
  started := 0
  scheduler := .create
  inFlight := []
  settleOnDrain := []
  ordinaryBytes := 0
  controlBytes := 0
  ordinaryFrames := 0
  controlFrames := 0
  saturated := false
  writing := false
  drainObservedDuringWrite := false
  pumping := false
  closed := false
  livenessOutstanding := false
  removeDrainListener := transport.onDrain && transport.removesDrainListener

variable (transport : MultiplexerTransport) (writer : TransportWriter)

def laneName : MultiplexerWriterLane → String
  | .ordinary => "ordinary"
  | .control => "control"
  | .liveness => "liveness"

def admissionError (bytes : ℕ) (lane : MultiplexerWriterLane) : Option String :=
  let byteLimit : ℤ :=
    if lane = .ordinary then multiplexerOrdinaryQueueMaxBytes else multiplexerControlReserveBytes
  let retainedBytes := if lane = .ordinary then writer.ordinaryBytes else writer.controlBytes
  let frameLimit : ℤ := if lane = .ordinary then ordinaryQueueMaxFrames else controlQueueMaxFrames
  let retainedFrames := if lane = .ordinary then writer.ordinaryFrames else writer.controlFrames
  if retainedBytes + bytes ≤ byteLimit ∧ retainedFrames < frameLimit then none
  else some ("Multiplexer " ++ laneName lane ++ " write queue exceeded its bounded capacity")

/-- A new entry, with the number of entries before it. -/
def retain (bytes : ℕ) (lane : MultiplexerWriterLane) : TransportWriter :=
  { writer with
    entries := Function.update writer.entries writer.admitted ⟨bytes, lane, false, []⟩
    admitted := writer.admitted + 1
    ordinaryBytes := writer.ordinaryBytes + if lane = .ordinary then (bytes : ℤ) else 0
    ordinaryFrames := writer.ordinaryFrames + if lane = .ordinary then 1 else 0
    controlBytes := writer.controlBytes + if lane = .ordinary then 0 else (bytes : ℤ)
    controlFrames := writer.controlFrames + if lane = .ordinary then 0 else 1
    livenessOutstanding := writer.livenessOutstanding || decide (lane = .liveness) }

/-- Run the callback of an entry, unless it has run. -/
def onSettled (entry : ℕ) (result : MultiplexerWriteSettlement) :
    TransportWriter × List WriterTask :=
  if (writer.entries entry).reports = [] then
    ({ writer with
      entries := Function.update writer.entries entry
        { writer.entries entry with reports := [result] } },
      [.outside (.settled entry result)])
  else (writer, [])

/-- A failure after the write started cannot prove that the peer received no bytes. -/
def verdict (entry : ℕ) (result : MultiplexerWriteSettlement) : MultiplexerWriteSettlement :=
  match result with
  | .refused reason error =>
    if entry ∈ writer.inFlight then .unverifiable .transportSettlementLost error
    else .refused reason error
  | other => other

def forget (entry : ℕ) : TransportWriter :=
  let held := writer.entries entry
  { writer with
    entries := Function.update writer.entries entry { held with settled := true }
    inFlight := deleteMember writer.inFlight entry
    settleOnDrain := deleteMember writer.settleOnDrain entry
    ordinaryBytes := writer.ordinaryBytes - if held.lane = .ordinary then (held.bytes : ℤ) else 0
    ordinaryFrames := writer.ordinaryFrames - if held.lane = .ordinary then 1 else 0
    controlBytes := writer.controlBytes - if held.lane = .ordinary then 0 else (held.bytes : ℤ)
    controlFrames := writer.controlFrames - if held.lane = .ordinary then 0 else 1
    livenessOutstanding := writer.livenessOutstanding && !decide (held.lane = .liveness) }

def release (entry : ℕ) (result : MultiplexerWriteSettlement) :
    TransportWriter × List WriterTask :=
  if (writer.entries entry).settled then (writer, [])
  else (writer.forget entry).onSettled entry (writer.verdict entry result)

def setSaturated (saturated : Bool) : TransportWriter × List WriterTask :=
  if writer.saturated = saturated then (writer, [])
  else ({ writer with saturated }, [.outside (.saturationChange saturated)])

/-- The start of `writeEntry`, up to the call of `transport.write`. -/
def startWrite (entry : ℕ) : TransportWriter × List WriterTask :=
  ({ writer with
    inFlight := addMember writer.inFlight entry
    writing := true
    drainObservedDuringWrite := false
    writes := Function.update writer.writes writer.started ⟨entry, none, false⟩
    started := writer.started + 1 },
    [.outside (.write writer.started)])

def pump : TransportWriter × List WriterTask :=
  if writer.pumping || writer.closed || writer.saturated then (writer, [])
  else ({ writer with pumping := true }, [.pumpLoop])

/-- One round of the loop of `pump`, or its end. -/
def pumpLoop : TransportWriter × List WriterTask :=
  if writer.closed || writer.saturated then ({ writer with pumping := false }, [])
  else
    match writer.scheduler.select with
    | (none, scheduler) => ({ writer with scheduler, pumping := false }, [])
    | (some entry, scheduler) =>
      let (written, tasks) := startWrite { writer with scheduler } entry
      (written, tasks ++ [.pumpLoop])

/-- Whether an entry is admitted, and what admitting it does. -/
def enqueue (bytes : ℕ) (lane : MultiplexerWriterLane) :
    Bool × TransportWriter × List WriterTask :=
  if writer.closed then
    (false, writer,
      [.outside (.turnedAway (.refused .transportDisposed "Multiplexer writer is closed"))])
  else if lane = .liveness ∧ writer.livenessOutstanding then (false, writer, [])
  else
    match writer.admissionError bytes lane with
    | some error =>
      (false, writer,
        [.outside (.turnedAway (.refused .transportQueueFull error)), .fail error])
    | none =>
      let entry := writer.admitted
      let retained := writer.retain bytes lane
      if lane = .liveness ∧ writer.saturated then (true, retained.startWrite entry)
      else
        (true, { retained with scheduler := retained.scheduler.enqueue entry lane }, [.pump])

def dispose (error : String) : TransportWriter × List WriterTask :=
  if writer.closed then (writer, [])
  else
    ({ writer with closed := true, saturated := false },
      (if writer.removeDrainListener then [.outside .removeDrainListener] else []) ++
        [.disposeQueued error])

def fail (error : String) : TransportWriter × List WriterTask :=
  if writer.closed then (writer, [])
  else
    let (disposed, tasks) := writer.dispose error
    (disposed, tasks ++ [.outside (.failure error)])

def disposeQueued (error : String) : TransportWriter × List WriterTask :=
  let (queued, scheduler) := writer.scheduler.clear
  ({ writer with removeDrainListener := false, scheduler },
    queued.map (fun entry => .release entry (.refused .transportRejectedBeforeHandoff error)) ++
      [.disposeInFlight error])

def disposeInFlight (error : String) : TransportWriter × List WriterTask :=
  (writer,
    writer.inFlight.map
        (fun entry => .release entry (.refused .transportRejectedBeforeHandoff error)) ++
      [.clearSettleOnDrain])

def handleWriteSettlement (entry : ℕ) (result : MultiplexerWriteSettlement) :
    TransportWriter × List WriterTask :=
  if (writer.entries entry).settled then (writer, [])
  else
    (writer, [.release entry result,
      match result with
      | .accepted => .pump
      | .refused _ error => .fail error
      | .unverifiable _ error => .fail error])

def setReturned (write : ℕ) : TransportWriter :=
  { writer with
    writing := false
    writes := Function.update writer.writes write { writer.writes write with returned := true } }

/-- `transport.write`, or the code after it, throws. -/
def writeThrew (write : ℕ) (error : String) : TransportWriter × List WriterTask :=
  (writer.setReturned write, [.useCallbackResult write, .fail error])

/-- `transport.write` returns a boolean, or nothing. -/
def writeReturned (write : ℕ) (accepted : Option Bool) : TransportWriter × List WriterTask :=
  if accepted = some false then
    if transport.onDrain then
      let (changed, tasks) := (writer.setReturned write).setSaturated
        (!writer.drainObservedDuringWrite)
      (changed, tasks ++ [.afterSaturation write])
    else
      writer.writeThrew write "Multiplexer transport returned write(false) without drain support"
  else
    (writer.setReturned write,
      (if transport.supportsWriteSettlement then []
        else [.handleWriteSettlement (writer.writes write).entry .accepted]) ++
        [.useCallbackResult write])

def afterSaturation (write : ℕ) : TransportWriter × List WriterTask :=
  let entry := (writer.writes write).entry
  if transport.supportsWriteSettlement then (writer, [.useCallbackResult write])
  else if writer.saturated then
    ({ writer with settleOnDrain := addMember writer.settleOnDrain entry },
      [.useCallbackResult write])
  else (writer, [.handleWriteSettlement entry .accepted, .useCallbackResult write])

def useCallbackResult (write : ℕ) : TransportWriter × List WriterTask :=
  match (writer.writes write).callbackResult with
  | none => (writer, [])
  | some result => (writer, [.handleWriteSettlement (writer.writes write).entry result])

/-- The callback given to `transport.write`. -/
def onWriteSettled (write : ℕ) (result : MultiplexerTransportWriteResult) :
    TransportWriter × List WriterTask :=
  if (writer.writes write).returned then
    (writer, [.handleWriteSettlement (writer.writes write).entry result.settlement])
  else
    ({ writer with
      writes := Function.update writer.writes write
        { writer.writes write with callbackResult := some result.settlement } }, [])

def handleDrain : TransportWriter × List WriterTask :=
  if writer.closed then (writer, [])
  else if writer.writing then ({ writer with drainObservedDuringWrite := true }, [])
  else if !writer.saturated then (writer, [])
  else
    let (drained, tasks) := writer.setSaturated false
    (drained, tasks ++ [.settleDrained])

/-- The rest of `handleDrain` once the writer is no longer saturated. -/
def settleDrained : TransportWriter × List WriterTask :=
  (writer, writer.settleOnDrain.map (fun entry => .release entry .accepted) ++
    [.clearSettleOnDrain, .pump])

def clearSettleOnDrain : TransportWriter × List WriterTask :=
  ({ writer with settleOnDrain := [] }, [])

/-- Do one thing that is left to do; a call outside is not the writer's to finish. -/
def perform : WriterTask → Option (TransportWriter × List WriterTask)
  | .outside _ => none
  | .pump => some writer.pump
  | .pumpLoop => some writer.pumpLoop
  | .afterSaturation write => some (writer.afterSaturation transport write)
  | .useCallbackResult write => some (writer.useCallbackResult write)
  | .handleWriteSettlement entry result => some (writer.handleWriteSettlement entry result)
  | .release entry result => some (writer.release entry result)
  | .fail error => some (writer.fail error)
  | .disposeQueued error => some (writer.disposeQueued error)
  | .disposeInFlight error => some (writer.disposeInFlight error)
  | .settleDrained => some writer.settleDrained
  | .clearSettleOnDrain => some writer.clearSettleOnDrain

end TransportWriter

/-- A writer in the middle of its calls, the innermost first. -/
structure WriterMachine where
  writer : TransportWriter
  stack : List WriterTask

/-- What happens next: a call of the writer, the end of a call outside, or the next thing to do. -/
inductive WriterInput
  | enqueue (bytes : ℕ) (lane : MultiplexerWriterLane)
  | drain
  | dispose (error : String)
  | settlement (write : ℕ) (result : MultiplexerTransportWriteResult)
  | writeReturned (accepted : Option Bool)
  | writeThrew (error : String)
  | callReturned
  | next

namespace WriterMachine

def start (transport : MultiplexerTransport) : WriterMachine := ⟨.start transport, []⟩

/-- The control is outside the writer: in a call it made, or where no call is running. -/
def outside (machine : WriterMachine) : Bool :=
  match machine.stack with
  | [] => true
  | .outside _ :: _ => true
  | _ => false

def push (machine : WriterMachine) (result : TransportWriter × List WriterTask) : WriterMachine :=
  ⟨result.1, result.2 ++ machine.stack⟩

/-- The step of the machine, where the input is possible. -/
def step (transport : MultiplexerTransport) (machine : WriterMachine) :
    WriterInput → Option WriterMachine
  | .enqueue bytes lane =>
    if machine.outside then some (machine.push (machine.writer.enqueue bytes lane).2) else none
  | .drain =>
    if machine.outside && transport.onDrain then some (machine.push machine.writer.handleDrain)
    else none
  | .dispose error =>
    if machine.outside then some (machine.push (machine.writer.dispose error)) else none
  | .settlement write result =>
    if machine.outside && decide (write < machine.writer.started) then
      some (machine.push (machine.writer.onWriteSettled write result))
    else none
  | .writeReturned accepted =>
    match machine.stack with
    | .outside (.write write) :: rest =>
      some (push ⟨machine.writer, rest⟩ (machine.writer.writeReturned transport write accepted))
    | _ => none
  | .writeThrew error =>
    match machine.stack with
    | .outside (.write write) :: rest =>
      some (push ⟨machine.writer, rest⟩ (machine.writer.writeThrew write error))
    | _ => none
  | .callReturned =>
    match machine.stack with
    | .outside (.write _) :: _ => none
    | .outside _ :: rest => some ⟨machine.writer, rest⟩
    | _ => none
  | .next =>
    match machine.stack with
    | [] => none
    | task :: rest =>
      (machine.writer.perform transport task).map (push ⟨machine.writer, rest⟩)

end WriterMachine

end OxeeUI.Ssh
