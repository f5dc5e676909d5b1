import Mathlib.Algebra.Order.Ring.Rat
import Mathlib.Data.Finset.Insert
import Mathlib.Data.Finset.Erase
import OxeeUI.Library.JsMap

/-!
# Admission of public assignments

Three kinds of lease share a pool of permits.  Placements and drain returns wait in queues of
their own, at most one reserved request waits beside them, and every waiter has a timer.
-/

namespace OxeeUI.Relay

open OxeeUI.Library

inductive AssignmentAdmissionRejection
  | hostInFlight | hostRateLimited | queueFull | waitTimeout | superseded | reservedUnavailable

inductive LeaseKind
  | placement | reserved | drainReturn
deriving DecidableEq

structure AdmissionOptions where
  maxConcurrent : Nat
  maxQueued : Nat
  maxReservedConcurrent : Nat
  maxDrainReturnConcurrent : Nat
  maxDrainReturnQueued : Nat
  drainReturnMinIntervalMs : ℚ
  minIntervalMs : ℚ
  /-- What the clock shows at each of its readings. -/
  now : Nat → ℚ

structure PendingAssignment where
  relayHostId : String
  /-- The request whose promise it resolves. -/
  request : Nat
deriving DecidableEq

structure AssignmentAdmissionLease where
  relayHostId : String
  kind : LeaseKind
  released : Bool

/-- What a request's promise resolves to. -/
inductive AdmissionAnswer
  | lease (handle : Nat)
  | rejected (reason : AssignmentAdmissionRejection)

structure RelayPublicAssignmentAdmission where
  active : Nat
  activeReserved : Nat
  activeDrainReturn : Nat
  activeDrainReturnHosts : Finset String
  queuedDrainReturnHosts : Finset String
  lastDrainReturnAttemptByHost : JsMap String ℚ
  pendingDrainReturns : List PendingAssignment
  activeAssignmentHosts : Finset String
  activeReservedHosts : Finset String
  queuedAssignmentHosts : Finset String
  lastAttemptByHost : JsMap String ℚ
  lastReservedAttemptByHost : JsMap String ℚ
  pendingAssignments : List PendingAssignment
  pendingReserved : Option PendingAssignment
  leases : List AssignmentAdmissionLease
  /-- How many requests were made. -/
  requests : Nat
  /-- The promises resolved, oldest first. -/
  answers : List (Nat × AdmissionAnswer)
  /-- The waits not cancelled, by their requests. -/
  timers : JsMap Nat (LeaseKind × String)
  /-- The rejections reported to `onRejected`. -/
  reported : List AssignmentAdmissionRejection
  /-- How often the clock was read. -/
  readings : Nat

namespace RelayPublicAssignmentAdmission

variable (options : AdmissionOptions)

def new : RelayPublicAssignmentAdmission where
  active := 0
  activeReserved := 0
  activeDrainReturn := 0
  activeDrainReturnHosts := ∅
  queuedDrainReturnHosts := ∅
  lastDrainReturnAttemptByHost := .empty
  pendingDrainReturns := []
  activeAssignmentHosts := ∅
  activeReservedHosts := ∅
  queuedAssignmentHosts := ∅
  lastAttemptByHost := .empty
  lastReservedAttemptByHost := .empty
  pendingAssignments := []
  pendingReserved := none
  leases := []
  requests := 0
  answers := []
  timers := .empty
  reported := []
  readings := 0

/-! ## Small steps -/

def maxTrackedHosts : Nat := 4096

/-- `recordAttempt`: the host goes to the end, and the oldest is forgotten beyond the bound. -/
def recordAttempt (attempts : JsMap String ℚ) (relayHostId : String) (now : ℚ) : JsMap String ℚ :=
  let written := (attempts.delete relayHostId).set relayHostId now
  if written.size > maxTrackedHosts then
    match written.keys.head? with
    | some oldest => written.delete oldest
    | none => written
  else written

def readClock (admission : RelayPublicAssignmentAdmission) : RelayPublicAssignmentAdmission :=
  { admission with readings := admission.readings + 1 }

def time (admission : RelayPublicAssignmentAdmission) : ℚ := options.now (admission.readings - 1)

def answer (admission : RelayPublicAssignmentAdmission) (request : Nat)
    (given : AdmissionAnswer) : RelayPublicAssignmentAdmission :=
  { admission with answers := admission.answers ++ [(request, given)] }

/-- `reject`, and the promise resolved with it. -/
def reject (admission : RelayPublicAssignmentAdmission) (request : Nat)
    (reason : AssignmentAdmissionRejection) : RelayPublicAssignmentAdmission :=
  let told := { admission with reported := admission.reported ++ [reason] }
  told.answer request (.rejected reason)

/-- A rejection of the drain lane skips `onRejected`. -/
def rejectDrain (admission : RelayPublicAssignmentAdmission) (request : Nat)
    (reason : AssignmentAdmissionRejection) : RelayPublicAssignmentAdmission :=
  admission.answer request (.rejected reason)

def cancelWait (admission : RelayPublicAssignmentAdmission) (request : Nat) :
    RelayPublicAssignmentAdmission :=
  { admission with timers := admission.timers.delete request }

def addLease (admission : RelayPublicAssignmentAdmission) (relayHostId : String)
    (kind : LeaseKind) : RelayPublicAssignmentAdmission :=
  let counted : RelayPublicAssignmentAdmission := { admission with
    active := admission.active + 1
    leases := admission.leases ++ [⟨relayHostId, kind, false⟩] }
  match kind with
  | .reserved =>
    { counted with
      activeReserved := counted.activeReserved + 1
      activeReservedHosts := insert relayHostId counted.activeReservedHosts }
  | .drainReturn =>
    { counted with
      activeDrainReturn := counted.activeDrainReturn + 1
      activeDrainReturnHosts := insert relayHostId counted.activeDrainReturnHosts }
  | .placement =>
    { counted with activeAssignmentHosts := insert relayHostId counted.activeAssignmentHosts }

/-- `createLease`, and the promise resolved with it. -/
def createLease (admission : RelayPublicAssignmentAdmission) (request : Nat)
    (relayHostId : String) (kind : LeaseKind) : RelayPublicAssignmentAdmission :=
  (admission.addLease relayHostId kind).answer request (.lease admission.leases.length)

/-- The part of a lease's `release` before others are granted. -/
def endLease (admission : RelayPublicAssignmentAdmission) (handle : Nat)
    (lease : AssignmentAdmissionLease) : RelayPublicAssignmentAdmission :=
  let counted : RelayPublicAssignmentAdmission := { admission with
    active := admission.active - 1
    leases := admission.leases.set handle { lease with released := true } }
  match lease.kind with
  | .reserved =>
    { counted with
      activeReserved := counted.activeReserved - 1
      activeReservedHosts := counted.activeReservedHosts.erase lease.relayHostId }
  | .drainReturn =>
    { counted with
      activeDrainReturn := counted.activeDrainReturn - 1
      activeDrainReturnHosts := counted.activeDrainReturnHosts.erase lease.relayHostId }
  | .placement =>
    { counted with
      activeAssignmentHosts := counted.activeAssignmentHosts.erase lease.relayHostId }

/-! ## Granting -/

/-- `recordAttempt` for a lease of the kind, at the time last read. -/
def recordGrant (admission : RelayPublicAssignmentAdmission) (relayHostId : String)
    (kind : LeaseKind) : RelayPublicAssignmentAdmission :=
  let now := admission.time options
  match kind with
  | .placement =>
    { admission with
      lastAttemptByHost := recordAttempt admission.lastAttemptByHost relayHostId now }
  | .reserved =>
    { admission with
      lastReservedAttemptByHost :=
        recordAttempt admission.lastReservedAttemptByHost relayHostId now }
  | .drainReturn =>
    { admission with
      lastDrainReturnAttemptByHost :=
        recordAttempt admission.lastDrainReturnAttemptByHost relayHostId now }

/-- The grant of a request that waited and has just left its queue. -/
def grant (admission : RelayPublicAssignmentAdmission) (pending : PendingAssignment)
    (kind : LeaseKind) : RelayPublicAssignmentAdmission :=
  (((admission.cancelWait pending.request).readClock).recordGrant options pending.relayHostId
    kind).createLease pending.request pending.relayHostId kind

def canGrantDrainReturn (admission : RelayPublicAssignmentAdmission) : Bool :=
  admission.activeDrainReturn < options.maxDrainReturnConcurrent ∧
    admission.active < options.maxConcurrent ∧ admission.pendingReserved = none ∧
    admission.pendingAssignments = []

/-- `pendingDrainReturns.shift()`. -/
def leaveDrainQueue (admission : RelayPublicAssignmentAdmission) (pending : PendingAssignment)
    (rest : List PendingAssignment) : RelayPublicAssignmentAdmission :=
  { admission with
    pendingDrainReturns := rest
    queuedDrainReturnHosts := admission.queuedDrainReturnHosts.erase pending.relayHostId }

def grantDrainReturns (admission : RelayPublicAssignmentAdmission) :
    List PendingAssignment → RelayPublicAssignmentAdmission
  | [] => admission
  | pending :: rest =>
    if admission.canGrantDrainReturn options then
      grantDrainReturns
        ((admission.leaveDrainQueue pending rest).grant options pending .drainReturn) rest
    else admission

def grantPendingDrainReturns (admission : RelayPublicAssignmentAdmission) :
    RelayPublicAssignmentAdmission :=
  admission.grantDrainReturns options admission.pendingDrainReturns

def grantPendingReserved (admission : RelayPublicAssignmentAdmission) :
    RelayPublicAssignmentAdmission :=
  match admission.pendingReserved with
  | none => admission
  | some pending =>
    if admission.active ≥ options.maxConcurrent ∨
        pending.relayHostId ∈ admission.activeAssignmentHosts then admission
    else { admission with pendingReserved := none }.grant options pending .reserved

def leavePlacementQueue (admission : RelayPublicAssignmentAdmission)
    (pending : PendingAssignment) (rest : List PendingAssignment) :
    RelayPublicAssignmentAdmission :=
  { admission with
    pendingAssignments := rest
    queuedAssignmentHosts := admission.queuedAssignmentHosts.erase pending.relayHostId }

def grantAssignments (admission : RelayPublicAssignmentAdmission) :
    List PendingAssignment → RelayPublicAssignmentAdmission
  | [] => admission
  | pending :: rest =>
    if admission.pendingReserved = none ∧ admission.active < options.maxConcurrent then
      grantAssignments
        ((admission.leavePlacementQueue pending rest).grant options pending .placement) rest
    else admission

def grantPendingAssignments (admission : RelayPublicAssignmentAdmission) :
    RelayPublicAssignmentAdmission :=
  admission.grantAssignments options admission.pendingAssignments

/-! ## Requests -/

/-- A request's number, and the clock read for it. -/
def openRequest (admission : RelayPublicAssignmentAdmission) :
    RelayPublicAssignmentAdmission × Nat :=
  ({ admission.readClock with requests := admission.requests + 1 }, admission.requests)

/-- A promise that waits in a queue, with its timer. -/
def waitForDrainReturn (admission : RelayPublicAssignmentAdmission) (relayHostId : String)
    (request : Nat) : RelayPublicAssignmentAdmission :=
  { admission with
    pendingDrainReturns := admission.pendingDrainReturns ++ [⟨relayHostId, request⟩]
    queuedDrainReturnHosts := insert relayHostId admission.queuedDrainReturnHosts
    timers := admission.timers.set request (.drainReturn, relayHostId) }

def waitForPlacement (admission : RelayPublicAssignmentAdmission) (relayHostId : String)
    (request : Nat) : RelayPublicAssignmentAdmission :=
  { admission with
    pendingAssignments := admission.pendingAssignments ++ [⟨relayHostId, request⟩]
    queuedAssignmentHosts := insert relayHostId admission.queuedAssignmentHosts
    timers := admission.timers.set request (.placement, relayHostId) }

def waitForReserved (admission : RelayPublicAssignmentAdmission) (relayHostId : String)
    (request : Nat) : RelayPublicAssignmentAdmission :=
  { admission with
    pendingReserved := some ⟨relayHostId, request⟩
    timers := admission.timers.set request (.reserved, relayHostId) }

def isRateLimited (attempts : JsMap String ℚ) (relayHostId : String) (now minIntervalMs : ℚ) :
    Bool :=
  match attempts.get? relayHostId with
  | none => false
  | some lastAttempt => now - lastAttempt < minIntervalMs

def acquireDrainReturn (admission : RelayPublicAssignmentAdmission) (relayHostId : String) :
    RelayPublicAssignmentAdmission :=
  let (opened, request) := admission.openRequest
  if relayHostId ∈ opened.activeDrainReturnHosts ∨ relayHostId ∈ opened.queuedDrainReturnHosts then
    opened.rejectDrain request .hostInFlight
  else if isRateLimited opened.lastDrainReturnAttemptByHost relayHostId (opened.time options)
      options.drainReturnMinIntervalMs then
    opened.rejectDrain request .hostRateLimited
  else if opened.pendingDrainReturns = [] ∧ opened.canGrantDrainReturn options then
    (opened.recordGrant options relayHostId .drainReturn).createLease request relayHostId
      .drainReturn
  else if opened.pendingDrainReturns.length ≥ options.maxDrainReturnQueued then
    opened.rejectDrain request .queueFull
  else
    opened.waitForDrainReturn relayHostId request

def acquire (admission : RelayPublicAssignmentAdmission) (relayHostId : String) :
    RelayPublicAssignmentAdmission :=
  let (opened, request) := admission.openRequest
  if relayHostId ∈ opened.activeAssignmentHosts ∨ relayHostId ∈ opened.activeReservedHosts ∨
      relayHostId ∈ opened.queuedAssignmentHosts ∨
      opened.pendingReserved.map PendingAssignment.relayHostId = some relayHostId then
    opened.reject request .hostInFlight
  else if isRateLimited opened.lastAttemptByHost relayHostId (opened.time options)
      options.minIntervalMs then
    opened.reject request .hostRateLimited
  else if opened.active < options.maxConcurrent ∧ opened.pendingReserved = none ∧
      opened.pendingAssignments = [] then
    (opened.recordGrant options relayHostId .placement).createLease request relayHostId .placement
  else if opened.pendingAssignments.length ≥ options.maxQueued then
    opened.reject request .queueFull
  else
    opened.waitForPlacement relayHostId request

/-- The placement a reserved request for its host supersedes is rejected. -/
def cancelQueuedAssignment (admission : RelayPublicAssignmentAdmission) (relayHostId : String) :
    RelayPublicAssignmentAdmission :=
  match admission.pendingAssignments.find? (·.relayHostId = relayHostId) with
  | none => admission
  | some pending =>
    ((admission.leavePlacementQueue pending (admission.pendingAssignments.erase pending)).cancelWait
      pending.request).reject pending.request .superseded

def acquireReserved (admission : RelayPublicAssignmentAdmission) (relayHostId : String) :
    RelayPublicAssignmentAdmission :=
  let (opened, request) := admission.openRequest
  if options.maxReservedConcurrent = 0 ∨ opened.activeReserved ≥ options.maxReservedConcurrent then
    opened.reject request .reservedUnavailable
  else if relayHostId ∈ opened.activeReservedHosts then opened.reject request .hostInFlight
  else if opened.pendingReserved ≠ none then opened.reject request .reservedUnavailable
  else if isRateLimited opened.lastReservedAttemptByHost relayHostId (opened.time options)
      options.minIntervalMs then
    opened.reject request .hostRateLimited
  else
    let alone := opened.cancelQueuedAssignment relayHostId
    if alone.active < options.maxConcurrent ∧ relayHostId ∉ alone.activeAssignmentHosts then
      (alone.recordGrant options relayHostId .reserved).createLease request relayHostId .reserved
    else alone.waitForReserved relayHostId request

/-! ## Releases and timers -/

/-- `release` of a lease; another release of it does nothing. -/
def release (admission : RelayPublicAssignmentAdmission) (handle : Nat) :
    RelayPublicAssignmentAdmission :=
  match admission.leases[handle]? with
  | none => admission
  | some lease =>
    if lease.released then admission
    else
      (((admission.endLease handle lease).grantPendingReserved options).grantPendingAssignments
        options).grantPendingDrainReturns options

def fire (admission : RelayPublicAssignmentAdmission) (request : Nat) :
    RelayPublicAssignmentAdmission :=
  match admission.timers.get? request with
  | none => admission
  | some (kind, relayHostId) =>
    let fired := admission.cancelWait request
    match kind with
    | .placement =>
      match fired.pendingAssignments.find? (·.request = request) with
      | none => fired
      | some pending =>
        ((fired.leavePlacementQueue pending
          (fired.pendingAssignments.erase pending)).reject request
            .waitTimeout).grantPendingDrainReturns options
    | .drainReturn =>
      match fired.pendingDrainReturns.find? (·.request = request) with
      | none => fired
      | some pending =>
        (fired.leaveDrainQueue pending
          (fired.pendingDrainReturns.erase pending)).rejectDrain request .waitTimeout
    | .reserved =>
      -- The wait is told by its host alone.
      if fired.pendingReserved.map PendingAssignment.relayHostId ≠ some relayHostId then fired
      else
        ((({ fired with pendingReserved := none
            : RelayPublicAssignmentAdmission }.reject request
              .waitTimeout).grantPendingAssignments options).grantPendingDrainReturns options)

end RelayPublicAssignmentAdmission

inductive AdmissionEvent
  | acquire (relayHostId : String)
  | acquireReserved (relayHostId : String)
  | acquireDrainReturn (relayHostId : String)
  | release (lease : Nat)
  | fire (request : Nat)

namespace RelayPublicAssignmentAdmission

variable (options : AdmissionOptions)

def step (admission : RelayPublicAssignmentAdmission) :
    AdmissionEvent → RelayPublicAssignmentAdmission
  | .acquire relayHostId => admission.acquire options relayHostId
  | .acquireReserved relayHostId => admission.acquireReserved options relayHostId
  | .acquireDrainReturn relayHostId => admission.acquireDrainReturn options relayHostId
  | .release lease => admission.release options lease
  | .fire request => admission.fire options request

def after (events : List AdmissionEvent) : RelayPublicAssignmentAdmission :=
  events.foldl (step options) new

end RelayPublicAssignmentAdmission

end OxeeUI.Relay
