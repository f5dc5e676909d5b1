import OxeeUI.Library.KeyedTotals
import Mathlib.Algebra.Order.Ring.Rat
import Mathlib.Data.Rat.Cast.Order

/-!
# The credit of the renderer

Main counts, for each PTY, the characters it sent to the renderer and the
characters the renderer acknowledged, and keeps the sum of the debts beside the
accounts.  Sends are held back while a debt is high.  The operations here are
the ones that write the accounts or the sum: a send and its rollback, a
cumulative acknowledgement, the write-off of lost bytes, an exit, and the
wholesale clears of a lost window and of a lifecycle reset.
-/

namespace OxeeUI.Delivery

open OxeeUI.Library

abbrev PtyId := String

abbrev CodeUnits := List UInt16

/-- The window of the session: absent in a headless host, or destroyed. -/
inductive RendererWindow
  | missing
  | live
  | destroyed
  deriving DecidableEq

/-- `!session.mainWindow || session.mainWindow.isDestroyed()`, negated. -/
def RendererWindow.isLive : RendererWindow → Bool
  | .live => true
  | .missing | .destroyed => false

structure PtyDataPayload where
  id : PtyId
  data : CodeUnits
  seq : Option ℤ
  rawLength : Option ℤ
  transformed : Bool
  background : Bool
  droppedOutput : Bool
  gapEscapeState : Option CodeUnits

structure PendingPtyData where
  data : CodeUnits
  startSeq : Option ℤ
  rawLength : Option ℤ
  transformed : Bool
  containsBackgroundOutput : Bool
  gapEscapeState : Option CodeUnits
  droppedOutput : Bool

structure RendererPtyDeliveryAccounting where
  sentChars : ℚ
  ackedChars : ℚ
  lastSendAtMs : ℤ
  lastAckAtMs : Option ℤ
  deriving DecidableEq

def RendererPtyDeliveryAccounting.inFlightChars (accounting : RendererPtyDeliveryAccounting) : ℚ :=
  accounting.sentChars - accounting.ackedChars

inductive PtyModelRestoreReason
  | hiddenDrop
  | pendingCap
  | deliveryHeal

/-- The reasons the runtime had for stopping a PTY that exits. -/
inductive IntentionalPtyStop
  | reversible
  | replaced
  | other
  deriving DecidableEq

structure PtyExitPayload where
  id : PtyId
  code : ℤ
  incarnationId : Option String

inductive RendererMessage
  | data (payload : PtyDataPayload)
  | modelRestoreNeeded (id : PtyId) (reason : PtyModelRestoreReason) (markerSeq : Option ℤ)
      (hiddenDropEpisode : Option ℕ)
  | exit (payload : PtyExitPayload) (preserveRendererBinding replacedByRestart : Bool)

structure PtyIpcSession where
  mainWindow : RendererWindow
  pendingData : JsMap PtyId PendingPtyData
  rendererExitingPtyIds : List PtyId
  rendererDeliveryRestoreNeededPtys : List PtyId
  pendingOverflowMarkedPtys : List PtyId
  rendererDeliveryAccountingByPty : JsMap PtyId RendererPtyDeliveryAccounting
  rendererInFlightTotalChars : ℚ
  rendererPtyDispatcherReady : Bool
  sent : List RendererMessage

/-- `createPtyIpcSession`. -/
def createPtyIpcSession (mainWindow : RendererWindow) : PtyIpcSession where
  mainWindow := mainWindow
  pendingData := .empty
  rendererExitingPtyIds := []
  rendererDeliveryRestoreNeededPtys := []
  pendingOverflowMarkedPtys := []
  rendererDeliveryAccountingByPty := .empty
  rendererInFlightTotalChars := 0
  rendererPtyDispatcherReady := false
  sent := []

/-- What an operation reads from its surroundings while it runs. -/
structure Moment where
  now : ℤ
  getPtyOutputSequence : PtyId → Option ℤ

structure SendFaults where
  data : Bool
  marker : Bool
  exit : Bool

/-- `Math.max(0, value)`. -/
def clampToZero (value : ℚ) : ℚ := max 0 value

def unclamped (value : ℚ) : ℚ := value

section Reads

variable (session : PtyIpcSession) (id : PtyId)

def getRendererInFlightCharsForPty : ℚ :=
  session.rendererDeliveryAccountingByPty.weightAt
    RendererPtyDeliveryAccounting.inFlightChars id

def rendererInFlightHighWaterChars : ℚ := 512 * 1024
def rendererTotalInFlightHighWaterChars : ℚ := 8 * 1024 * 1024
def rendererInteractiveReserveChars : ℚ := 256 * 1024
def rendererActivePtyInFlightReserveChars : ℚ := 512 * 1024

def canSendPtyDataToRenderer (interactive : Bool) : Bool :=
  let totalLimit := rendererTotalInFlightHighWaterChars +
    (if interactive then rendererInteractiveReserveChars else 0)
  let ptyLimit := rendererInFlightHighWaterChars +
    (if interactive then rendererActivePtyInFlightReserveChars else 0)
  decide (getRendererInFlightCharsForPty session id < ptyLimit) &&
    decide (session.rendererInFlightTotalChars < totalLimit)

end Reads

section Sends

variable (clamp : ℚ → ℚ)

def makePtyDataPayload (id : PtyId) (pending : PendingPtyData) : PtyDataPayload :=
  let rawLength := pending.rawLength.getD pending.data.length
  { id
    data := pending.data
    gapEscapeState := pending.gapEscapeState.filter (· ≠ [])
    seq := pending.startSeq.map (· + rawLength)
    rawLength :=
      if pending.startSeq.isSome ∨ rawLength ≠ pending.data.length ∨ pending.transformed then
        some rawLength
      else none
    transformed := pending.transformed
    background := pending.containsBackgroundOutput
    droppedOutput := false }

def getPtyPayloadCharCount (payload : PtyDataPayload) : ℤ :=
  max 0 (payload.rawLength.getD payload.data.length)

/-- Whether the marker left, and the session after. -/
def sendModelRestoreNeededMarker (session : PtyIpcSession) (id : PtyId)
    (reason : PtyModelRestoreReason) (markerSeq : Option ℤ) (hiddenDropEpisode : Option ℕ)
    (throws : Bool) : Bool × PtyIpcSession :=
  if session.mainWindow.isLive && !throws then
    (true, { session with
      sent := session.sent ++ [.modelRestoreNeeded id reason markerSeq hiddenDropEpisode] })
  else (false, session)

/-- The account a send is charged to, as it stands after the charge. -/
def chargedAccounting (existing : Option RendererPtyDeliveryAccounting) (charCount : ℚ)
    (now : ℤ) : RendererPtyDeliveryAccounting :=
  match existing with
  | some accounting =>
    { accounting with sentChars := accounting.sentChars + charCount, lastSendAtMs := now }
  | none => ⟨charCount, 0, now, none⟩

/-- The part of `sendPtyDataToRenderer` before the send. -/
def chargePtyDelivery (session : PtyIpcSession) (id : PtyId) (charCount : ℚ) (now : ℤ) :
    PtyIpcSession :=
  { session with
    rendererDeliveryAccountingByPty := session.rendererDeliveryAccountingByPty.set id
      (chargedAccounting (session.rendererDeliveryAccountingByPty.get? id) charCount now)
    rendererInFlightTotalChars := session.rendererInFlightTotalChars + charCount }

def rolledBackAccounting (current : RendererPtyDeliveryAccounting) (charCount : ℚ) :
    RendererPtyDeliveryAccounting :=
  let sentChars := clamp (current.sentChars - charCount)
  { current with sentChars, ackedChars := min current.ackedChars sentChars }

/-- The `catch` of `sendPtyDataToRenderer`. -/
def rollBackPtyDelivery (session : PtyIpcSession) (id : PtyId) (charCount : ℚ)
    (hadAccounting : Bool) : PtyIpcSession :=
  let restored : PtyIpcSession :=
    match session.rendererDeliveryAccountingByPty.get? id with
    | none => session
    | some current =>
      let next := rolledBackAccounting clamp current charCount
      let accounts := session.rendererDeliveryAccountingByPty.set id next
      { session with
        rendererInFlightTotalChars := clamp
          (session.rendererInFlightTotalChars - (current.inFlightChars - next.inFlightChars))
        rendererDeliveryAccountingByPty :=
          if !hadAccounting && next.sentChars = 0 then accounts.delete id else accounts }
  { restored with
    rendererDeliveryRestoreNeededPtys := restored.rendererDeliveryRestoreNeededPtys.insert id }

/-- The end of `sendPtyDataToRenderer`, once the payload has left. -/
def healAfterSend (session : PtyIpcSession) (id : PtyId) (markerSeq : Option ℤ)
    (markerThrows : Bool) : PtyIpcSession :=
  if id ∈ session.rendererDeliveryRestoreNeededPtys then
    let (left, marked) :=
      sendModelRestoreNeededMarker session id .deliveryHeal markerSeq none markerThrows
    if left then
      { marked with
        rendererDeliveryRestoreNeededPtys := marked.rendererDeliveryRestoreNeededPtys.erase id }
    else marked
  else session

/-- Whether the payload left, and the session after. -/
def sendPtyDataToRenderer (moment : Moment) (session : PtyIpcSession) (id : PtyId)
    (payload : PtyDataPayload) (faults : SendFaults) : Bool × PtyIpcSession :=
  if session.mainWindow = .missing then (false, session)
  else
    let charCount : ℚ := getPtyPayloadCharCount payload
    let hadAccounting := session.rendererDeliveryAccountingByPty.has id
    let charged := chargePtyDelivery session id charCount moment.now
    if faults.data then (false, rollBackPtyDelivery clamp charged id charCount hadAccounting)
    else
      let left := { charged with sent := charged.sent ++ [.data payload] }
      (true, healAfterSend left id (moment.getPtyOutputSequence id) faults.marker)

end Sends

section Credits

variable (clamp : ℚ → ℚ)

/-- The characters newly acknowledged, and the session after. -/
def applyCumulativeAck (now : ℤ) (session : PtyIpcSession) (id : PtyId) (processedChars : ℚ) :
    ℚ × PtyIpcSession :=
  match session.rendererDeliveryAccountingByPty.get? id with
  | none => (0, session)
  | some accounting =>
    let nextAckedChars := min accounting.sentChars (max accounting.ackedChars processedChars)
    let acknowledged := nextAckedChars - accounting.ackedChars
    (acknowledged, { session with
      rendererDeliveryAccountingByPty := session.rendererDeliveryAccountingByPty.set id
        { accounting with
          ackedChars := nextAckedChars
          lastAckAtMs := if 0 < acknowledged then some now else accounting.lastAckAtMs }
      rendererInFlightTotalChars :=
        clamp (session.rendererInFlightTotalChars - acknowledged) })

/-- A value of a report's record: a finite number, or anything else. -/
inductive ReportedChars
  | finite (chars : ℚ)
  | other

/-- The part of `PtyRendererDeliveryStateReport` a write-off reads. -/
structure PtyRendererDeliveryStateReport where
  receivedCharsByPty : PtyId → Option ReportedChars

def PtyRendererDeliveryStateReport.receivedChars (report : PtyRendererDeliveryStateReport)
    (id : PtyId) : ℚ :=
  match report.receivedCharsByPty id with
  | some (.finite chars) => max 0 chars
  | _ => 0

structure PtyDeliveryWriteOff where
  id : PtyId
  markerSeq : Option ℤ
  writtenOffChars : ℚ

/-- Whether the loop of `writeOffLostRendererDelivery` passes an account over. -/
def keepsDebt (report : PtyRendererDeliveryStateReport) (id : PtyId)
    (accounting : RendererPtyDeliveryAccounting) : Bool :=
  decide (accounting.inFlightChars ≤ 0) ||
    decide (accounting.ackedChars < report.receivedChars id)

/-- One round of the loop of `writeOffLostRendererDelivery`. -/
def writeOffPtyDelivery (moment : Moment) (report : PtyRendererDeliveryStateReport)
    (progress : List PtyDeliveryWriteOff × PtyIpcSession) (id : PtyId) :
    List PtyDeliveryWriteOff × PtyIpcSession :=
  match progress.2.rendererDeliveryAccountingByPty.get? id with
  | none => progress
  | some accounting =>
    if keepsDebt report id accounting then progress
    else
      let (acknowledged, credited) :=
        applyCumulativeAck clamp moment.now progress.2 id accounting.sentChars
      if acknowledged ≤ 0 then (progress.1, credited)
      else
        (progress.1 ++ [⟨id, moment.getPtyOutputSequence id, acknowledged⟩],
          if credited.pendingData.has id then
            { credited with
              pendingData := credited.pendingData.delete id
              pendingOverflowMarkedPtys := credited.pendingOverflowMarkedPtys.erase id }
          else credited)

def writeOffLostRendererDelivery (moment : Moment) (session : PtyIpcSession)
    (report : PtyRendererDeliveryStateReport) : List PtyDeliveryWriteOff × PtyIpcSession :=
  session.rendererDeliveryAccountingByPty.keys.foldl
    (writeOffPtyDelivery clamp moment report) ([], session)

end Credits

section Exits

variable (clamp : ℚ → ℚ)

/-- The payload an exit flushes the pending output with. -/
def remainingPayload (id : PtyId) (remaining : PendingPtyData) : PtyDataPayload :=
  if remaining.droppedOutput then
    { id
      data := remaining.data
      seq := none
      rawLength := none
      transformed := false
      background := false
      droppedOutput := true
      gapEscapeState := none }
  else makePtyDataPayload id remaining

def preparePtyExitForRenderer (moment : Moment) (session : PtyIpcSession) (id : PtyId)
    (faults : SendFaults) : Option PtyIpcSession :=
  if session.mainWindow.isLive then
    if id ∈ session.rendererExitingPtyIds then none
    else
      let exiting := { session with
        rendererExitingPtyIds := session.rendererExitingPtyIds.insert id
        pendingData := session.pendingData.delete id }
      match session.pendingData.get? id with
      | none => some exiting
      | some remaining =>
        some (sendPtyDataToRenderer clamp moment exiting id (remainingPayload id remaining)
          faults).2
  else some session

def finalizePtyExitForRenderer (session : PtyIpcSession) (payload : PtyExitPayload)
    (intentionalStops : List IntentionalPtyStop) (throws : Bool) : PtyIpcSession :=
  if session.mainWindow.isLive then
    let releasedRendererCredit := getRendererInFlightCharsForPty session payload.id
    { session with
      pendingOverflowMarkedPtys := session.pendingOverflowMarkedPtys.erase payload.id
      rendererDeliveryRestoreNeededPtys :=
        session.rendererDeliveryRestoreNeededPtys.erase payload.id
      rendererInFlightTotalChars :=
        clamp (session.rendererInFlightTotalChars - releasedRendererCredit)
      rendererDeliveryAccountingByPty :=
        session.rendererDeliveryAccountingByPty.delete payload.id
      sent :=
        if throws then session.sent
        else session.sent ++ [.exit payload (intentionalStops.contains .reversible)
          (intentionalStops.contains .replaced)] }
  else session

def sendPtyExitToRenderer (moment : Moment) (session : PtyIpcSession) (payload : PtyExitPayload)
    (intentionalStops : List IntentionalPtyStop) (faults : SendFaults) : PtyIpcSession :=
  match preparePtyExitForRenderer clamp moment session payload.id faults with
  | none => session
  | some prepared =>
    let finished := finalizePtyExitForRenderer clamp prepared payload intentionalStops faults.exit
    -- Without a live window nothing was claimed, so nothing is released.
    if session.mainWindow.isLive then
      { finished with
        rendererExitingPtyIds := finished.rendererExitingPtyIds.erase payload.id }
    else finished

end Exits

section Clears

variable (session : PtyIpcSession)

/-- How `acceptPtyDataForRenderer` and `flushPendingData` begin when there is no live window. -/
def clearDeliveryWithoutWindow : PtyIpcSession :=
  if session.mainWindow.isLive then session
  else
    { session with
      pendingData := .empty
      pendingOverflowMarkedPtys := []
      rendererDeliveryAccountingByPty := .empty
      rendererInFlightTotalChars := 0 }

def resetRendererDeliveryAccountingForLifecycleReset : PtyIpcSession :=
  { session with
    rendererDeliveryAccountingByPty := .empty
    rendererInFlightTotalChars := 0
    pendingData := .empty
    pendingOverflowMarkedPtys := []
    rendererDeliveryRestoreNeededPtys := []
    rendererPtyDispatcherReady := false }

def loseWindow : PtyIpcSession :=
  { session with
    mainWindow := if session.mainWindow = .live then .destroyed else session.mainWindow }

def setPendingPtyData (id : PtyId) (pending : PendingPtyData) : PtyIpcSession :=
  { session with pendingData := session.pendingData.set id pending }

end Clears

inductive DeliveryEvent
  | send (moment : Moment) (id : PtyId) (payload : PtyDataPayload) (faults : SendFaults)
  | ack (moment : Moment) (id : PtyId) (processedChars : ℚ)
  | writeOff (moment : Moment) (report : PtyRendererDeliveryStateReport)
  | pend (id : PtyId) (pending : PendingPtyData)
  | exit (moment : Moment) (payload : PtyExitPayload) (stops : List IntentionalPtyStop)
      (faults : SendFaults)
  | loseWindow
  | clearWithoutWindow
  | lifecycleReset

/-- One event, with `clamp` where the source has `Math.max(0, …)` around an account or the sum. -/
def deliver (clamp : ℚ → ℚ) (session : PtyIpcSession) : DeliveryEvent → PtyIpcSession
  | .send moment id payload faults =>
    (sendPtyDataToRenderer clamp moment session id payload faults).2
  | .ack moment id processedChars =>
    (applyCumulativeAck clamp moment.now session id processedChars).2
  | .writeOff moment report => (writeOffLostRendererDelivery clamp moment session report).2
  | .pend id pending => setPendingPtyData session id pending
  | .exit moment payload stops faults =>
    sendPtyExitToRenderer clamp moment session payload stops faults
  | .loseWindow => loseWindow session
  | .clearWithoutWindow => clearDeliveryWithoutWindow session
  | .lifecycleReset => resetRendererDeliveryAccountingForLifecycleReset session

/-- A whole run from the session's creation. -/
def runDelivery (mainWindow : RendererWindow) (events : List DeliveryEvent) : PtyIpcSession :=
  events.foldl (deliver clampToZero) (createPtyIpcSession mainWindow)

end OxeeUI.Delivery
