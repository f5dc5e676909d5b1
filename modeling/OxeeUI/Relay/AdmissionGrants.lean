import OxeeUI.Library.Run
import OxeeUI.Relay.AdmissionLeases

/-!
# No waiter of the admission is stranded

Whatever frees a permit or empties a queue grants in the order of priority, until nothing more
can be granted.
-/

namespace OxeeUI.Relay.RelayPublicAssignmentAdmission

open OxeeUI.Library

variable {options : AdmissionOptions} {admission next : RelayPublicAssignmentAdmission}
variable {hand : Option Nat} {host : String} {kind : LeaseKind} {pending : PendingAssignment}
variable {rest : List PendingAssignment}

/-! ## Leaving the queues -/

theorem leaves_placement (left : admission.pendingAssignments.Perm (pending :: rest)) :
    Leaves pending .placement admission
      ((admission.leavePlacementQueue pending rest).cancelWait pending.request) where
  leases := ⟨rfl, rfl, rfl, rfl, rfl⟩
  left := left
  waiting := by
    intro other different
    cases other with
    | placement => exact absurd rfl different
    | reserved => rfl
    | drainReturn => rfl
  queued := by
    intro other held
    cases other with
    | placement =>
      show held ∈ admission.queuedAssignmentHosts.erase pending.relayHostId ↔ _
      rw [Finset.mem_erase]
      simp [queuedHosts, and_comm]
    | reserved => simp [queuedHosts, leavePlacementQueue, cancelWait]
    | drainReturn => simp [queuedHosts, leavePlacementQueue, cancelWait]
  timers := rfl
  requests := rfl
  answers := rfl

theorem leaves_drainReturn (left : admission.pendingDrainReturns.Perm (pending :: rest)) :
    Leaves pending .drainReturn admission
      ((admission.leaveDrainQueue pending rest).cancelWait pending.request) where
  leases := ⟨rfl, rfl, rfl, rfl, rfl⟩
  left := left
  waiting := by
    intro other different
    cases other with
    | placement => rfl
    | reserved => rfl
    | drainReturn => exact absurd rfl different
  queued := by
    intro other held
    cases other with
    | placement => simp [queuedHosts, leaveDrainQueue, cancelWait]
    | reserved => simp [queuedHosts, leaveDrainQueue, cancelWait]
    | drainReturn =>
      show held ∈ admission.queuedDrainReturnHosts.erase pending.relayHostId ↔ _
      rw [Finset.mem_erase]
      simp [queuedHosts, and_comm]
  timers := rfl
  requests := rfl
  answers := rfl

/-- `pendingReserved = undefined`. -/
def leaveReserved (admission : RelayPublicAssignmentAdmission) : RelayPublicAssignmentAdmission :=
  { admission with pendingReserved := none }

theorem leaves_reserved (waits : admission.pendingReserved = some pending) :
    Leaves pending .reserved admission (admission.leaveReserved.cancelWait pending.request) where
  leases := ⟨rfl, rfl, rfl, rfl, rfl⟩
  left := by
    show admission.pendingReserved.toList.Perm [pending]
    rw [waits]
    exact .refl _
  waiting := by
    intro other different
    cases other with
    | placement => rfl
    | reserved => exact absurd rfl different
    | drainReturn => rfl
  queued := by
    intro other held
    cases other with
    | placement => simp [queuedHosts, leaveReserved, cancelWait]
    | reserved => simp [queuedHosts, leaveReserved, cancelWait, waits]
    | drainReturn => simp [queuedHosts, leaveReserved, cancelWait]
  timers := rfl
  requests := rfl
  answers := rfl

/-! ## Joining them -/

theorem joins_placement (admission : RelayPublicAssignmentAdmission) (host : String)
    (request : Nat) :
    Joins host request .placement admission (admission.waitForPlacement host request) where
  leases := ⟨rfl, rfl, rfl, rfl, rfl⟩
  waiting := by
    intro other
    cases other <;> rfl
  queued := by
    intro other held
    cases other with
    | placement =>
      show held ∈ insert host admission.queuedAssignmentHosts ↔ _
      rw [Finset.mem_insert]
      simp [queuedHosts, or_comm]
    | reserved => simp [queuedHosts, waitForPlacement]
    | drainReturn => simp [queuedHosts, waitForPlacement]
  timers := rfl
  requests := rfl
  answers := rfl

theorem joins_drainReturn (admission : RelayPublicAssignmentAdmission) (host : String)
    (request : Nat) :
    Joins host request .drainReturn admission (admission.waitForDrainReturn host request) where
  leases := ⟨rfl, rfl, rfl, rfl, rfl⟩
  waiting := by
    intro other
    cases other <;> rfl
  queued := by
    intro other held
    cases other with
    | placement => simp [queuedHosts, waitForDrainReturn]
    | reserved => simp [queuedHosts, waitForDrainReturn]
    | drainReturn =>
      show held ∈ insert host admission.queuedDrainReturnHosts ↔ _
      rw [Finset.mem_insert]
      simp [queuedHosts, or_comm]
  timers := rfl
  requests := rfl
  answers := rfl

theorem joins_reserved (alone : admission.pendingReserved = none) (host : String) (request : Nat) :
    Joins host request .reserved admission (admission.waitForReserved host request) where
  leases := ⟨rfl, rfl, rfl, rfl, rfl⟩
  waiting := by
    intro other
    cases other with
    | placement => rfl
    | reserved => simp [waiting, waitForReserved, alone]
    | drainReturn => rfl
  queued := by
    intro other held
    cases other with
    | placement => simp [queuedHosts, waitForReserved]
    | reserved => simp [queuedHosts, waitForReserved, alone]
    | drainReturn => simp [queuedHosts, waitForReserved]
  timers := rfl
  requests := rfl
  answers := rfl

/-! ## One grant -/

theorem Free.of_same (free : admission.Free host kind)
    (hosts : next.activeHosts = admission.activeHosts) (waiting : next.waiting = admission.waiting) :
    next.Free host kind where
  own := by
    rw [hosts]
    exact free.own
  unqueued := by
    rw [waiting]
    exact free.unqueued
  placement := by
    rw [hosts]
    exact free.placement
  reserved := by
    rw [hosts, waiting]
    exact free.reserved

theorem Room.of_same (room : admission.Room options kind) (leases : admission.SameLeases next)
    (waiting : next.waiting = admission.waiting) : next.Room options kind where
  active := by
    rw [leases.active]
    exact room.active
  reserved := by
    rw [leases.reserved, waiting]
    exact room.reserved
  drainReturn := by
    rw [leases.drainReturn]
    exact room.drainReturn

theorem sameLeases_recordGrant (options : AdmissionOptions) (admission : RelayPublicAssignmentAdmission) (host : String)
    (kind : LeaseKind) :
    admission.SameLeases (admission.recordGrant options host kind) ∧
      (admission.recordGrant options host kind).waiting = admission.waiting := by
  cases kind <;> exact ⟨⟨rfl, rfl, rfl, rfl, rfl⟩, rfl⟩

theorem Sound.recordLease {request : Nat} (sound : admission.Sound options (some request))
    (free : admission.Free host kind) (room : admission.Room options kind) :
    ((admission.recordGrant options host kind).createLease request host kind).Sound options none := by
  obtain ⟨leases, waiting⟩ := sameLeases_recordGrant options admission host kind
  exact (sound.recordGrant host kind).createLease (free.of_same leases.hosts waiting)
    (room.of_same leases waiting)

theorem Leaves.grant {queue : RelayPublicAssignmentAdmission}
    (leaves : Leaves pending kind admission (queue.cancelWait pending.request))
    (sound : admission.Sound options none)
    (apart : kind = .reserved → pending.relayHostId ∉ admission.activeHosts .placement)
    (room : (queue.cancelWait pending.request).Room options kind) :
    (queue.grant options pending kind).Sound options none := by
  have free := leaves.free sound apart
  exact (leaves.sound sound).readClock.recordLease (free.of_same rfl rfl)
    (room.of_same ⟨rfl, rfl, rfl, rfl, rfl⟩ rfl)

/-! ## Runs of grants -/

/-- What granting from one queue leaves of the rest. -/
structure Granted (kind : LeaseKind) (admission next : RelayPublicAssignmentAdmission) : Prop where
  waiting : ∀ other, other ≠ kind → next.waiting other = admission.waiting other
  hosts : ∀ other, other ≠ kind → next.activeHosts other = admission.activeHosts other
  more : admission.active ≤ next.active

theorem Granted.refl (kind : LeaseKind) (admission : RelayPublicAssignmentAdmission) :
    Granted kind admission admission :=
  ⟨fun _ _ => rfl, fun _ _ => rfl, Nat.le_refl _⟩

theorem Granted.trans {middle : RelayPublicAssignmentAdmission}
    (early : Granted kind admission middle) (late : Granted kind middle next) :
    Granted kind admission next where
  waiting := fun other different =>
    (late.waiting other different).trans (early.waiting other different)
  hosts := fun other different => (late.hosts other different).trans (early.hosts other different)
  more := early.more.trans late.more

theorem granted_grant {queue : RelayPublicAssignmentAdmission}
    (waiting : ∀ other, other ≠ kind → queue.waiting other = admission.waiting other)
    (leases : admission.SameLeases queue) : Granted kind admission (queue.grant options pending kind) where
  waiting := by
    intro other different
    rw [← waiting other different]
    cases kind <;> cases other <;> rfl
  hosts := by
    intro other different
    rw [← leases.hosts]
    cases kind <;> cases other <;> first | rfl | exact absurd rfl different
  more := by
    rw [← leases.active]
    cases kind <;> exact Nat.le_succ _

/-- Placements wait only behind a full pool or a reserved request. -/
def PlacementsServed (options : AdmissionOptions) (admission : RelayPublicAssignmentAdmission) :
    Prop :=
  admission.pendingAssignments ≠ [] →
    options.maxConcurrent ≤ admission.active ∨ admission.pendingReserved ≠ none

/-- The reserved request waits only behind a full pool or its host's placement. -/
def ReservedServed (options : AdmissionOptions) (admission : RelayPublicAssignmentAdmission) :
    Prop :=
  ∀ pending, admission.pendingReserved = some pending →
    options.maxConcurrent ≤ admission.active ∨
      pending.relayHostId ∈ admission.activeHosts .placement

/-- Drain returns wait only while none can be granted. -/
def DrainReturnsServed (options : AdmissionOptions) (admission : RelayPublicAssignmentAdmission) :
    Prop :=
  admission.pendingDrainReturns ≠ [] → admission.canGrantDrainReturn options = false

theorem grantAssignments_spec {queue : List PendingAssignment}
    (sound : admission.Sound options none) (waits : admission.pendingAssignments = queue) :
    (admission.grantAssignments options queue).Sound options none ∧
      Granted .placement admission (admission.grantAssignments options queue) ∧
      PlacementsServed options (admission.grantAssignments options queue) := by
  induction queue generalizing admission with
  | nil => exact ⟨sound, .refl .., fun waiting => absurd waits waiting⟩
  | cons pending rest ih =>
    unfold grantAssignments
    split
    case isFalse full =>
      refine ⟨sound, .refl .., fun _ => ?_⟩
      by_cases below : admission.active < options.maxConcurrent
      · exact Or.inr fun none => full ⟨none, below⟩
      · exact Or.inl (Nat.le_of_not_lt below)
    case isTrue granting =>
      have leaves := leaves_placement (List.Perm.of_eq waits)
      have granted := leaves.grant sound (by simp) ⟨granting.2, by simp, by simp⟩
      have one : Granted .placement admission
          ((admission.leavePlacementQueue pending rest).grant options pending .placement) :=
        granted_grant leaves.waiting ⟨rfl, rfl, rfl, rfl, rfl⟩
      obtain ⟨sound', more, served⟩ := ih granted rfl
      exact ⟨sound', one.trans more, served⟩

theorem grantDrainReturns_spec {queue : List PendingAssignment}
    (sound : admission.Sound options none) (waits : admission.pendingDrainReturns = queue) :
    (admission.grantDrainReturns options queue).Sound options none ∧
      Granted .drainReturn admission (admission.grantDrainReturns options queue) ∧
      DrainReturnsServed options (admission.grantDrainReturns options queue) := by
  induction queue generalizing admission with
  | nil => exact ⟨sound, .refl .., fun waiting => absurd waits waiting⟩
  | cons pending rest ih =>
    unfold grantDrainReturns
    split
    case isFalse full =>
      exact ⟨sound, .refl .., fun _ => Bool.eq_false_of_not_eq_true full⟩
    case isTrue granting =>
      obtain ⟨below, active, -, -⟩ := of_decide_eq_true granting
      have leaves := leaves_drainReturn (List.Perm.of_eq waits)
      have granted := leaves.grant sound (by simp) ⟨active, by simp, fun _ => below⟩
      have one : Granted .drainReturn admission
          ((admission.leaveDrainQueue pending rest).grant options pending .drainReturn) :=
        granted_grant leaves.waiting ⟨rfl, rfl, rfl, rfl, rfl⟩
      obtain ⟨sound', more, served⟩ := ih granted rfl
      exact ⟨sound', one.trans more, served⟩

theorem grantPendingReserved_spec (sound : admission.Sound options none) :
    (admission.grantPendingReserved options).Sound options none ∧
      Granted .reserved admission (admission.grantPendingReserved options) ∧
      ReservedServed options (admission.grantPendingReserved options) := by
  unfold grantPendingReserved
  split
  case h_1 none =>
    refine ⟨sound, .refl .., fun pending waits => ?_⟩
    rw [none] at waits
    cases waits
  case h_2 pending waits =>
    split
    case isTrue full =>
      refine ⟨sound, .refl .., fun other waits' => ?_⟩
      obtain rfl := Option.some.inj (waits.symm.trans waits')
      exact full
    case isFalse granting =>
      rw [not_or, ge_iff_le, Nat.not_le] at granting
      have leaves := leaves_reserved waits
      have below : admission.activeReserved < options.maxReservedConcurrent := by
        have capped := sound.capped.reserved
        rw [leaves.left.length_eq, List.length_cons] at capped
        omega
      refine ⟨leaves.grant sound (fun _ => granting.2) ⟨granting.1, fun _ => below, by simp⟩,
        granted_grant leaves.waiting ⟨rfl, rfl, rfl, rfl, rfl⟩, ?_⟩
      intro other waits'
      cases waits'

/-! ## The events -/

structure Served (options : AdmissionOptions) (admission : RelayPublicAssignmentAdmission) : Prop
    where
  placements : PlacementsServed options admission
  reserved : ReservedServed options admission
  drainReturns : DrainReturnsServed options admission

theorem served_grantPendingDrainReturns (sound : admission.Sound options none)
    (placements : PlacementsServed options admission)
    (reserved : ReservedServed options admission) :
    (admission.grantPendingDrainReturns options).Sound options none ∧
      Served options (admission.grantPendingDrainReturns options) := by
  obtain ⟨sound', granted, served⟩ := grantDrainReturns_spec sound rfl
  have sameReserved : (admission.grantPendingDrainReturns options).pendingReserved.toList =
      admission.pendingReserved.toList := granted.waiting .reserved (by decide)
  have samePlacements : (admission.grantPendingDrainReturns options).pendingAssignments =
      admission.pendingAssignments := granted.waiting .placement (by decide)
  refine ⟨sound', ⟨?_, ?_, served⟩⟩
  · intro waits
    rw [samePlacements] at waits
    rcases placements waits with full | other
    · exact Or.inl (full.trans granted.more)
    · refine Or.inr fun none => other ?_
      rw [none] at sameReserved
      exact Option.toList_eq_nil_iff.mp sameReserved.symm
  · intro pending waits
    rw [waits] at sameReserved
    have before : admission.pendingReserved = some pending :=
      Option.toList_eq_singleton_iff.mp sameReserved.symm
    refine (reserved pending before).imp (fun full => full.trans granted.more) fun held => ?_
    rw [show (admission.grantPendingDrainReturns options).activeHosts .placement = _ from
      granted.hosts .placement (by decide)]
    exact held

theorem grantAssignments_of_reserved (waits : admission.pendingReserved ≠ none)
    (queue : List PendingAssignment) : admission.grantAssignments options queue = admission := by
  cases queue with
  | nil => rfl
  | cons pending rest =>
    unfold grantAssignments
    exact if_neg fun granting => waits granting.1

theorem served_grantPendingAssignments (sound : admission.Sound options none)
    (reserved : ReservedServed options admission) :
    ((admission.grantPendingAssignments options).grantPendingDrainReturns options).Sound options
        none ∧
      Served options
        ((admission.grantPendingAssignments options).grantPendingDrainReturns options) := by
  obtain ⟨sound', granted, served⟩ := grantAssignments_spec sound rfl
  refine served_grantPendingDrainReturns sound' served ?_
  by_cases none : admission.pendingReserved = none
  · intro pending waits
    have same : (admission.grantPendingAssignments options).pendingReserved.toList =
        admission.pendingReserved.toList := granted.waiting .reserved (by decide)
    rw [none, waits] at same
    cases same
  · unfold grantPendingAssignments
    rwa [grantAssignments_of_reserved none]

theorem release_spec (sound : admission.Sound options none) (served : Served options admission)
    (handle : Nat) : (admission.release options handle).Sound options none ∧
      Served options (admission.release options handle) := by
  unfold release
  split
  case h_1 => exact ⟨sound, served⟩
  case h_2 lease found =>
    split
    case isTrue => exact ⟨sound, served⟩
    case isFalse held =>
      have ended := sound.endLease found (Bool.eq_false_of_not_eq_true held)
      obtain ⟨sound', -, reserved⟩ := grantPendingReserved_spec ended
      exact served_grantPendingAssignments sound' reserved

theorem Served.of_same (served : Served options admission) (leases : admission.SameLeases next)
    (waiting : next.waiting = admission.waiting) : Served options next := by
  have placements : next.pendingAssignments = admission.pendingAssignments :=
    congrFun waiting .placement
  have drains : next.pendingDrainReturns = admission.pendingDrainReturns :=
    congrFun waiting .drainReturn
  have reserved : next.pendingReserved = admission.pendingReserved := by
    have first := congrArg List.head? (congrFun waiting .reserved)
    simpa only [RelayPublicAssignmentAdmission.waiting, Option.head?_toList] using first
  refine ⟨?_, ?_, ?_⟩
  · unfold PlacementsServed
    rw [placements, leases.active, reserved]
    exact served.placements
  · unfold ReservedServed
    rw [reserved, leases.active, leases.hosts]
    exact served.reserved
  · unfold DrainReturnsServed canGrantDrainReturn
    rw [drains, leases.drainReturn, leases.active, reserved, placements]
    exact served.drainReturns

theorem exists_of_timer (sound : admission.Sound options hand) {request : Nat}
    (armed : admission.timers.get? request = some (kind, host)) {queue : List PendingAssignment}
    (waits : admission.waiting kind = queue) :
    ∃ pending, queue.find? (fun pending => pending.request = request) = some pending ∧
      pending.request = request ∧ queue.Perm (pending :: queue.erase pending) := by
  subst waits
  have member := (sound.requests.timers request kind host).mp armed
  cases found : (admission.waiting kind).find? (fun pending => pending.request = request) with
  | none => exact absurd (List.find?_eq_none.mp found _ member) (by simp)
  | some pending =>
    have holds := List.find?_some found
    exact ⟨pending, rfl, of_decide_eq_true holds,
      List.perm_cons_erase (List.mem_of_find?_eq_some found)⟩

theorem fire_spec (sound : admission.Sound options none) (served : Served options admission)
    (request : Nat) : (admission.fire options request).Sound options none ∧
      Served options (admission.fire options request) := by
  unfold fire
  split
  case h_1 => exact ⟨sound, served⟩
  case h_2 kind relayHostId armed =>
    cases kind with
    | placement =>
      obtain ⟨pending, found, rfl, left⟩ := exists_of_timer sound armed rfl
      have leaves := leaves_placement left
      simp only
      rw [show (admission.cancelWait pending.request).pendingAssignments =
        admission.waiting .placement from rfl, found]
      refine served_grantPendingDrainReturns ((leaves.sound sound).reject _) ?_ served.reserved
      intro waits
      refine served.placements fun none => waits ?_
      show (admission.waiting .placement).erase pending = []
      rw [show admission.waiting .placement = [] from none]
      rfl
    | drainReturn =>
      obtain ⟨pending, found, rfl, left⟩ := exists_of_timer sound armed rfl
      have leaves := leaves_drainReturn left
      simp only
      rw [show (admission.cancelWait pending.request).pendingDrainReturns =
        admission.waiting .drainReturn from rfl, found]
      refine ⟨(leaves.sound sound).answer _, served.placements, served.reserved, fun waits => ?_⟩
      refine served.drainReturns fun none => waits ?_
      show (admission.waiting .drainReturn).erase pending = []
      rw [show admission.waiting .drainReturn = [] from none]
      rfl
    | reserved =>
      have member := (sound.requests.timers request .reserved relayHostId).mp armed
      have waits : admission.pendingReserved = some ⟨relayHostId, request⟩ :=
        Option.mem_toList.mp member
      have leaves := leaves_reserved waits
      simp only
      rw [if_neg (by simp [cancelWait, waits])]
      refine served_grantPendingAssignments ((leaves.sound sound).reject _) ?_
      intro pending none
      cases none

/-- Another lease strands nobody: there is less to grant. -/
theorem Served.createLease (served : Served options admission) (request : Nat) (host : String)
    (kind : LeaseKind) : Served options (admission.createLease request host kind) where
  placements := by
    intro waits
    have before : admission.pendingAssignments ≠ [] := by
      cases kind <;> exact waits
    have more : admission.active ≤ (admission.createLease request host kind).active := by
      cases kind <;> exact Nat.le_succ _
    refine (served.placements before).imp (fun full => full.trans more) fun other => ?_
    cases kind <;> exact other
  reserved := by
    intro pending waits
    have before : admission.pendingReserved = some pending := by
      cases kind <;> exact waits
    have more : admission.active ≤ (admission.createLease request host kind).active := by
      cases kind <;> exact Nat.le_succ _
    refine (served.reserved pending before).imp (fun full => full.trans more) fun held => ?_
    show _ ∈ (admission.addLease host kind).activeHosts .placement
    rw [activeHosts_addLease]
    split
    · exact Finset.mem_insert_of_mem held
    · exact held
  drainReturns := by
    intro waits
    have before : admission.pendingDrainReturns ≠ [] := by
      cases kind <;> exact waits
    have refused := served.drainReturns before
    rw [canGrantDrainReturn, decide_eq_false_iff_not] at refused ⊢
    rintro ⟨drains, active, rest⟩
    refine refused ⟨Nat.lt_of_le_of_lt ?_ drains, Nat.lt_of_le_of_lt ?_ active, ?_⟩
    · cases kind with
      | placement => exact Nat.le_refl _
      | reserved => exact Nat.le_refl _
      | drainReturn => exact Nat.le_succ _
    · cases kind <;> exact Nat.le_succ _
    · cases kind <;> exact rest

theorem Served.recordLease (served : Served options admission) (request : Nat) (host : String)
    (kind : LeaseKind) :
    Served options ((admission.recordGrant options host kind).createLease request host kind) := by
  obtain ⟨leases, waiting⟩ := sameLeases_recordGrant options admission host kind
  exact (served.of_same leases waiting).createLease request host kind

theorem Served.answer (served : Served options admission) (request : Nat)
    (given : AdmissionAnswer) : Served options (admission.answer request given) :=
  served.of_same ⟨rfl, rfl, rfl, rfl, rfl⟩ rfl

theorem Served.reject (served : Served options admission) (request : Nat)
    (reason : AssignmentAdmissionRejection) : Served options (admission.reject request reason) :=
  served.of_same ⟨rfl, rfl, rfl, rfl, rfl⟩ rfl

theorem not_mem_queue (sound : admission.QueuesSound) (absent : host ∉ admission.queuedHosts kind) :
    ∀ pending ∈ admission.waiting kind, pending.relayHostId ≠ host := by
  rintro pending member rfl
  exact absent ((sound.queued kind _).mpr (List.mem_map_of_mem member))

theorem acquire_spec (sound : admission.Sound options none) (served : Served options admission)
    (relayHostId : String) : (admission.acquire options relayHostId).Sound options none ∧
      Served options (admission.acquire options relayHostId) := by
  have opened := sound.openRequest
  have waits : Served options admission.openRequest.1 :=
    served.of_same ⟨rfl, rfl, rfl, rfl, rfl⟩ rfl
  unfold acquire
  simp only
  split
  case isTrue => exact ⟨opened.reject _, waits.reject _ _⟩
  case isFalse apart =>
    rw [not_or, not_or, not_or] at apart
    obtain ⟨idle, unreserved, unqueued, alone⟩ := apart
    have free : admission.openRequest.1.Free relayHostId .placement :=
      ⟨idle, not_mem_queue opened.queues unqueued, fun _ => unreserved, by simp⟩
    split
    case isTrue => exact ⟨opened.reject _, waits.reject _ _⟩
    case isFalse =>
      split
      case isTrue granting =>
        exact ⟨opened.recordLease free ⟨granting.1, by simp, by simp⟩, waits.recordLease _ _ _⟩
      case isFalse full =>
        split
        case isTrue => exact ⟨opened.reject _, waits.reject _ _⟩
        case isFalse =>
          have cross : ∀ reserved ∈ admission.openRequest.1.waiting .reserved,
              reserved.relayHostId ≠ relayHostId := by
            rintro reserved member rfl
            exact alone (by rw [Option.mem_toList.mp member]; rfl)
          have mayWait : admission.openRequest.1.MayWait relayHostId .placement :=
            ⟨idle, free.unqueued, fun _ => ⟨unreserved, cross⟩, by simp⟩
          refine ⟨opened.joins (joins_placement ..) mayWait (by simp),
            fun _ => ?_, waits.reserved, fun queued => ?_⟩
          · by_cases none : admission.openRequest.1.pendingAssignments = []
            · by_cases below : admission.openRequest.1.active < options.maxConcurrent
              · exact Or.inr fun reserved => full ⟨below, reserved, none⟩
              · exact Or.inl (Nat.le_of_not_lt below)
            · exact waits.placements none
          · simp [canGrantDrainReturn, waitForPlacement]

theorem acquireDrainReturn_spec (sound : admission.Sound options none)
    (served : Served options admission) (relayHostId : String) :
    (admission.acquireDrainReturn options relayHostId).Sound options none ∧
      Served options (admission.acquireDrainReturn options relayHostId) := by
  have opened := sound.openRequest
  have waits : Served options admission.openRequest.1 :=
    served.of_same ⟨rfl, rfl, rfl, rfl, rfl⟩ rfl
  unfold acquireDrainReturn
  simp only
  split
  case isTrue => exact ⟨opened.answer _, waits.answer _ _⟩
  case isFalse apart =>
    rw [not_or] at apart
    have free : admission.openRequest.1.Free relayHostId .drainReturn :=
      ⟨apart.1, not_mem_queue opened.queues apart.2, by simp, by simp⟩
    split
    case isTrue => exact ⟨opened.answer _, waits.answer _ _⟩
    case isFalse =>
      split
      case isTrue granting =>
        obtain ⟨below, active, -, -⟩ := of_decide_eq_true granting.2
        exact ⟨opened.recordLease free ⟨active, by simp, fun _ => below⟩,
          waits.recordLease _ _ _⟩
      case isFalse full =>
        split
        case isTrue => exact ⟨opened.answer _, waits.answer _ _⟩
        case isFalse =>
          have mayWait : admission.openRequest.1.MayWait relayHostId .drainReturn :=
            ⟨apart.1, free.unqueued, by simp, by simp⟩
          refine ⟨opened.joins (joins_drainReturn ..) mayWait (by simp), waits.placements,
            waits.reserved, fun _ => ?_⟩
          by_cases none : admission.openRequest.1.pendingDrainReturns = []
          · exact Bool.eq_false_of_not_eq_true fun grants => full ⟨none, grants⟩
          · exact waits.drainReturns none

/-- What superseding a host's queued placement leaves. -/
structure Superseded (options : AdmissionOptions) (host : String)
    (admission next : RelayPublicAssignmentAdmission) : Prop where
  sound : next.Sound options none
  leases : admission.SameLeases next
  gone : ∀ pending ∈ next.waiting .placement, pending.relayHostId ≠ host
  reserved : next.pendingReserved = none
  drainReturns : next.pendingDrainReturns = admission.pendingDrainReturns
  /-- A placement that waited did so behind a full pool. -/
  behind : admission.pendingAssignments ≠ [] → options.maxConcurrent ≤ admission.active
  fewer : next.pendingAssignments ≠ [] → admission.pendingAssignments ≠ []
  same : admission.pendingAssignments = [] → next = admission

theorem superseded_cancelQueuedAssignment (sound : admission.Sound options none)
    (served : Served options admission) (alone : admission.pendingReserved = none)
    (host : String) : Superseded options host admission (admission.cancelQueuedAssignment host) := by
  have behind : admission.pendingAssignments ≠ [] → options.maxConcurrent ≤ admission.active :=
    fun waits => (served.placements waits).resolve_right fun other => other alone
  unfold cancelQueuedAssignment
  split
  case h_1 none =>
    refine ⟨sound, ⟨rfl, rfl, rfl, rfl, rfl⟩, fun pending member same => ?_, alone, rfl, behind, id,
      fun _ => rfl⟩
    exact absurd same (by simpa using List.find?_eq_none.mp none pending member)
  case h_2 pending found =>
    have sameHost := List.find?_some found
    obtain rfl := of_decide_eq_true sameHost
    have member := List.mem_of_find?_eq_some found
    have leaves := leaves_placement (List.perm_cons_erase member)
    have gone : ∀ left ∈ admission.pendingAssignments.erase pending,
        left.relayHostId ≠ pending.relayHostId := by
      intro left stays same
      exact (leaves.distinct sound.queues).1 (List.mem_map.mpr ⟨left, stays, same⟩)
    refine ⟨(leaves.sound sound).reject _, ⟨rfl, rfl, rfl, rfl, rfl⟩, gone, alone, rfl, behind,
      fun _ none => ?_, fun none => ?_⟩
    · rw [none] at member
      cases member
    · rw [none] at member
      cases member

theorem cancelQueuedAssignment_openRequest (host : String) :
    admission.openRequest.1.cancelQueuedAssignment host =
      (admission.cancelQueuedAssignment host).openRequest.1 := by
  unfold cancelQueuedAssignment
  rw [show admission.openRequest.1.pendingAssignments = admission.pendingAssignments from rfl]
  split <;> rfl

theorem requests_cancelQueuedAssignment (host : String) :
    (admission.cancelQueuedAssignment host).requests = admission.requests := by
  unfold cancelQueuedAssignment
  split <;> rfl

/-- The reserved request that superseded its host's placement is granted or waits. -/
theorem Superseded.request_spec {before : RelayPublicAssignmentAdmission}
    (superseded : Superseded options host before admission)
    (served : Served options before)
    (room : before.activeReserved < options.maxReservedConcurrent)
    (idle : host ∉ before.activeReservedHosts) :
    let opened := admission.openRequest.1
    let next :=
      if opened.active < options.maxConcurrent ∧ host ∉ opened.activeAssignmentHosts then
        (opened.recordGrant options host .reserved).createLease admission.requests host .reserved
      else opened.waitForReserved host admission.requests
    next.Sound options none ∧ Served options next := by
  have opened := superseded.sound.openRequest
  rw [← superseded.leases.reserved] at room
  have idle : host ∉ admission.openRequest.1.activeHosts .reserved := by
    rw [show admission.openRequest.1.activeHosts = before.activeHosts from superseded.leases.hosts]
    exact idle
  have spare : admission.activeReserved + (admission.waiting .reserved).length <
      options.maxReservedConcurrent := by
    simp only [waiting, superseded.reserved, Option.toList_none, List.length_nil, Nat.add_zero]
    exact room
  have unreserved : ∀ pending ∈ admission.waiting .reserved, pending.relayHostId ≠ host := by
    simp [waiting, superseded.reserved]
  simp only
  split
  case isTrue granting =>
    have free : admission.openRequest.1.Free host .reserved :=
      ⟨idle, unreserved, by simp, fun _ => ⟨granting.2, superseded.gone⟩⟩
    refine ⟨opened.recordLease free ⟨granting.1, fun _ => spare, by simp⟩, ?_⟩
    -- A permit is free, so no placement waited and nothing was superseded.
    have none : before.pendingAssignments = [] := by
      by_contra waits
      have full := superseded.behind waits
      have below : admission.active < options.maxConcurrent := granting.1
      rw [superseded.leases.active] at below
      omega
    have waits : Served options admission.openRequest.1 := by
      rw [superseded.same none]
      exact served.of_same ⟨rfl, rfl, rfl, rfl, rfl⟩ rfl
    exact waits.recordLease _ _ _
  case isFalse waits =>
    have mayWait : admission.openRequest.1.MayWait host .reserved :=
      ⟨idle, unreserved, by simp, fun _ => superseded.gone⟩
    have alone : admission.openRequest.1.pendingReserved = none := superseded.reserved
    refine ⟨opened.joins (joins_reserved alone ..) mayWait (fun _ => spare),
      fun _ => ?_, ?_, fun _ => ?_⟩
    · exact Or.inr (by simp [waitForReserved])
    · intro pending waiting
      obtain rfl := Option.some.inj waiting
      by_cases below : admission.active < options.maxConcurrent
      · exact Or.inr (not_not.mp fun apart => waits ⟨below, apart⟩)
      · exact Or.inl (Nat.le_of_not_lt below)
    · simp [canGrantDrainReturn, waitForReserved]

theorem acquireReserved_spec (sound : admission.Sound options none)
    (served : Served options admission) (relayHostId : String) :
    (admission.acquireReserved options relayHostId).Sound options none ∧
      Served options (admission.acquireReserved options relayHostId) := by
  have opened := sound.openRequest
  have waits : Served options admission.openRequest.1 :=
    served.of_same ⟨rfl, rfl, rfl, rfl, rfl⟩ rfl
  unfold acquireReserved
  simp only
  split
  case isTrue => exact ⟨opened.reject _, waits.reject _ _⟩
  case isFalse room =>
    split
    case isTrue => exact ⟨opened.reject _, waits.reject _ _⟩
    case isFalse idle =>
      split
      case isTrue => exact ⟨opened.reject _, waits.reject _ _⟩
      case isFalse alone =>
        split
        case isTrue => exact ⟨opened.reject _, waits.reject _ _⟩
        case isFalse =>
          rw [not_or, ge_iff_le, Nat.not_le] at room
          rw [ne_eq, not_not] at alone
          have superseded := superseded_cancelQueuedAssignment sound served alone relayHostId
          rw [cancelQueuedAssignment_openRequest]
          have request : admission.openRequest.2 =
              (admission.cancelQueuedAssignment relayHostId).requests :=
            (requests_cancelQueuedAssignment relayHostId).symm
          rw [request]
          exact superseded.request_spec served room.2 idle

end OxeeUI.Relay.RelayPublicAssignmentAdmission
