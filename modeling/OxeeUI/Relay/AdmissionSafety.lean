import OxeeUI.Relay.AdmissionGrants

/-!
# Safety of the admission

What every event keeps holds after every sequence of events: leases within their caps and apart,
requests answered once, and nobody stranded.
-/

namespace OxeeUI.Relay.RelayPublicAssignmentAdmission

open OxeeUI.Library

variable {options : AdmissionOptions} {admission next : RelayPublicAssignmentAdmission}
variable {host : String} {kind : LeaseKind}

/-! ## Answers stand -/

/-- The promises resolved stay resolved as they are. -/
def Extends (admission next : RelayPublicAssignmentAdmission) : Prop :=
  admission.answers <+: next.answers

theorem Extends.refl (admission : RelayPublicAssignmentAdmission) : Extends admission admission :=
  List.prefix_rfl

theorem Extends.of_eq (same : next.answers = admission.answers) : Extends admission next := by
  rw [Extends, same]

theorem Extends.trans {middle : RelayPublicAssignmentAdmission}
    (early : Extends admission middle) (late : Extends middle next) : Extends admission next :=
  List.IsPrefix.trans early late

theorem extends_answer (admission : RelayPublicAssignmentAdmission) (request : Nat)
    (given : AdmissionAnswer) : Extends admission (admission.answer request given) :=
  List.prefix_append _ _

theorem extends_reject (admission : RelayPublicAssignmentAdmission) (request : Nat)
    (reason : AssignmentAdmissionRejection) :
    Extends admission (admission.reject request reason) :=
  List.prefix_append _ _

theorem answers_addLease (admission : RelayPublicAssignmentAdmission) (host : String)
    (kind : LeaseKind) : (admission.addLease host kind).answers = admission.answers := by
  cases kind <;> rfl

theorem extends_recordLease (options : AdmissionOptions)
    (admission : RelayPublicAssignmentAdmission) (request : Nat) (host : String)
    (kind : LeaseKind) :
    Extends admission ((admission.recordGrant options host kind).createLease request host kind) := by
  refine Extends.trans ?_ (extends_answer _ _ _)
  refine Extends.of_eq ?_
  rw [answers_addLease]
  cases kind <;> rfl

theorem extends_grant (options : AdmissionOptions) (admission : RelayPublicAssignmentAdmission)
    (pending : PendingAssignment) (kind : LeaseKind) :
    Extends admission (admission.grant options pending kind) := by
  have left : Extends admission (admission.cancelWait pending.request).readClock := .of_eq rfl
  exact left.trans (extends_recordLease options _ _ _ _)

theorem extends_grantAssignments (options : AdmissionOptions)
    (admission : RelayPublicAssignmentAdmission) (queue : List PendingAssignment) :
    Extends admission (admission.grantAssignments options queue) := by
  induction queue generalizing admission with
  | nil => exact .refl _
  | cons pending rest ih =>
    unfold grantAssignments
    split
    · have left : Extends admission (admission.leavePlacementQueue pending rest) := .of_eq rfl
      exact left.trans ((extends_grant options _ pending .placement).trans (ih _))
    · exact .refl _

theorem extends_grantDrainReturns (options : AdmissionOptions)
    (admission : RelayPublicAssignmentAdmission) (queue : List PendingAssignment) :
    Extends admission (admission.grantDrainReturns options queue) := by
  induction queue generalizing admission with
  | nil => exact .refl _
  | cons pending rest ih =>
    unfold grantDrainReturns
    split
    · have left : Extends admission (admission.leaveDrainQueue pending rest) := .of_eq rfl
      exact left.trans ((extends_grant options _ pending .drainReturn).trans (ih _))
    · exact .refl _

theorem extends_grantPendingReserved (options : AdmissionOptions)
    (admission : RelayPublicAssignmentAdmission) :
    Extends admission (admission.grantPendingReserved options) := by
  unfold grantPendingReserved
  split
  · exact .refl _
  · split
    · exact .refl _
    · have left : Extends admission admission.leaveReserved := .of_eq rfl
      exact left.trans (extends_grant options _ _ .reserved)

theorem extends_grantQueues (options : AdmissionOptions)
    (admission : RelayPublicAssignmentAdmission) :
    Extends admission
      ((admission.grantPendingAssignments options).grantPendingDrainReturns options) :=
  (extends_grantAssignments options _ _).trans (extends_grantDrainReturns options _ _)

theorem extends_cancelQueuedAssignment (admission : RelayPublicAssignmentAdmission)
    (host : String) : Extends admission (admission.cancelQueuedAssignment host) := by
  unfold cancelQueuedAssignment
  split
  · exact .refl _
  · exact extends_answer _ _ _

theorem extends_acquire (admission : RelayPublicAssignmentAdmission) (host : String) :
    Extends admission (admission.acquire options host) := by
  have opened : Extends admission admission.openRequest.1 := .of_eq rfl
  refine opened.trans ?_
  unfold acquire
  simp only
  repeat' split
  · exact extends_reject _ _ _
  · exact extends_reject _ _ _
  · exact extends_recordLease options _ _ _ _
  · exact extends_reject _ _ _
  · exact .of_eq rfl

theorem extends_acquireDrainReturn (admission : RelayPublicAssignmentAdmission) (host : String) :
    Extends admission (admission.acquireDrainReturn options host) := by
  have opened : Extends admission admission.openRequest.1 := .of_eq rfl
  refine opened.trans ?_
  unfold acquireDrainReturn
  simp only
  repeat' split
  · exact extends_answer _ _ _
  · exact extends_answer _ _ _
  · exact extends_recordLease options _ _ _ _
  · exact extends_answer _ _ _
  · exact .of_eq rfl

theorem extends_acquireReserved (admission : RelayPublicAssignmentAdmission) (host : String) :
    Extends admission (admission.acquireReserved options host) := by
  have opened : Extends admission admission.openRequest.1 := .of_eq rfl
  refine opened.trans ?_
  unfold acquireReserved
  simp only
  split
  · exact extends_reject _ _ _
  split
  · exact extends_reject _ _ _
  split
  · exact extends_reject _ _ _
  split
  · exact extends_reject _ _ _
  refine (extends_cancelQueuedAssignment _ host).trans ?_
  split
  · exact extends_recordLease options _ _ _ _
  · exact .of_eq rfl

theorem answers_endLease (admission : RelayPublicAssignmentAdmission) (handle : Nat)
    (lease : AssignmentAdmissionLease) :
    (admission.endLease handle lease).answers = admission.answers := by
  unfold endLease
  cases lease.kind <;> rfl

theorem extends_release (admission : RelayPublicAssignmentAdmission) (handle : Nat) :
    Extends admission (admission.release options handle) := by
  unfold release
  split
  · exact .refl _
  case h_2 lease _ =>
    split
    · exact .refl _
    · have ended : Extends admission (admission.endLease handle lease) :=
        .of_eq (answers_endLease _ _ _)
      refine ended.trans ?_
      exact (extends_grantPendingReserved options _).trans (extends_grantQueues options _)

theorem extends_fire (admission : RelayPublicAssignmentAdmission) (request : Nat) :
    Extends admission (admission.fire options request) := by
  unfold fire
  split
  · exact .refl _
  case h_2 kind relayHostId _ =>
    have fired : Extends admission (admission.cancelWait request) := .of_eq rfl
    refine fired.trans ?_
    cases kind with
    | placement =>
      simp only
      split
      · exact .refl _
      case h_2 pending _ =>
        have left : Extends (admission.cancelWait request)
            ((admission.cancelWait request).leavePlacementQueue pending
              ((admission.cancelWait request).pendingAssignments.erase pending)) := .of_eq rfl
        exact left.trans ((extends_reject _ _ _).trans (extends_grantDrainReturns options _ _))
    | drainReturn =>
      simp only
      split
      · exact .refl _
      · exact extends_answer _ _ _
    | reserved =>
      simp only
      split
      · exact .refl _
      · have left : Extends (admission.cancelWait request)
            (admission.cancelWait request).leaveReserved := .of_eq rfl
        exact left.trans ((extends_reject _ _ _).trans (extends_grantQueues options _))

theorem extends_step (admission : RelayPublicAssignmentAdmission) (event : AdmissionEvent) :
    Extends admission (admission.step options event) := by
  cases event with
  | acquire host => exact extends_acquire admission host
  | acquireReserved host => exact extends_acquireReserved admission host
  | acquireDrainReturn host => exact extends_acquireDrainReturn admission host
  | release lease => exact extends_release admission lease
  | fire request => exact extends_fire admission request

theorem fire_answers (sound : admission.Sound options none) {request : Nat}
    (armed : admission.timers.has request = true) :
    (request, .rejected .waitTimeout) ∈ (admission.fire options request).answers := by
  have told : ∀ (fired : RelayPublicAssignmentAdmission),
      (request, AdmissionAnswer.rejected .waitTimeout) ∈
        (fired.answer request (.rejected .waitTimeout)).answers :=
    fun fired => List.mem_append_right _ List.mem_cons_self
  obtain ⟨⟨kind, relayHostId⟩, armed⟩ := Option.isSome_iff_exists.mp armed
  unfold fire
  simp only [armed]
  cases kind with
  | placement =>
    obtain ⟨pending, found, rfl, -⟩ := exists_of_timer sound armed rfl
    simp only
    rw [show (admission.cancelWait pending.request).pendingAssignments =
      admission.waiting .placement from rfl, found]
    exact (extends_grantDrainReturns options _ _).subset (told _)
  | drainReturn =>
    obtain ⟨pending, found, rfl, -⟩ := exists_of_timer sound armed rfl
    simp only
    rw [show (admission.cancelWait pending.request).pendingDrainReturns =
      admission.waiting .drainReturn from rfl, found]
    exact told _
  | reserved =>
    have member := (sound.requests.timers request .reserved relayHostId).mp armed
    have waits : admission.pendingReserved = some ⟨relayHostId, request⟩ :=
      Option.mem_toList.mp member
    simp only
    rw [if_neg (by simp [cancelWait, waits])]
    exact (extends_grantQueues options _).subset (told _)

/-! ## Every run -/

structure Settled (options : AdmissionOptions) (admission : RelayPublicAssignmentAdmission) :
    Prop where
  sound : admission.Sound options none
  served : Served options admission

theorem settled_new (options : AdmissionOptions) : Settled options new where
  sound := by
    refine ⟨⟨rfl, rfl, rfl, ?_, ?_⟩, ⟨?_, ?_, ?_, ?_, ?_⟩, ⟨?_, ?_, ?_, ?_, ?_⟩,
      ⟨Nat.zero_le _, Nat.zero_le _, Nat.zero_le _⟩⟩
    · intro kind host
      cases kind <;> simp [activeHosts, Holds, new]
    · simp [new]
    · simp [activeHosts, new]
    · intro kind
      cases kind <;> simp [waiting, new]
    · simp [waiting, new]
    · intro kind
      cases kind <;> simp [waiting, new]
    · intro kind host
      cases kind <;> simp [waiting, queuedHosts, new]
    · intro request kind host
      cases kind <;> simp [waiting, new]
    · simp [new]
    · simp [new, JsMap.has]
    · simp [new]
    · simp
  served := by
    refine ⟨fun waits => absurd rfl waits, ?_, fun waits => absurd rfl waits⟩
    intro pending waits
    cases waits

theorem Settled.step (settled : Settled options admission) (event : AdmissionEvent) :
    Settled options (admission.step options event) := by
  obtain ⟨sound, served⟩ := settled
  have kept : (admission.step options event).Sound options none ∧
      Served options (admission.step options event) := by
    cases event with
    | acquire host => exact acquire_spec sound served host
    | acquireReserved host => exact acquireReserved_spec sound served host
    | acquireDrainReturn host => exact acquireDrainReturn_spec sound served host
    | release lease => exact release_spec sound served lease
    | fire request => exact fire_spec sound served request
  exact ⟨kept.1, kept.2⟩

theorem settled_after (options : AdmissionOptions) (events : List AdmissionEvent) :
    Settled options (after options events) :=
  foldl_preserves (settled_new options) (fun _ event settled => settled.step event) events

theorem Holds.not_both (sound : admission.Sound options none) (host : String) :
    ¬(admission.Holds .placement host ∧ admission.Holds .reserved host) := by
  rintro ⟨placement, reserved⟩
  exact sound.queues.apart host ((sound.leases.hosts .placement host).mpr placement)
    ((sound.leases.hosts .reserved host).mpr reserved)

theorem Sound.answered_or_waits (sound : admission.Sound options none) (request : Nat) :
    request < admission.requests ↔ request ∈ admission.answers.map Prod.fst ∨
      admission.timers.has request = true := by
  rw [sound.requests.all]
  simp

theorem Sound.waits_iff (sound : admission.Sound options none) (request : Nat) :
    admission.timers.has request = true ↔
      ∃ kind, ∃ pending ∈ admission.waiting kind, pending.request = request := by
  constructor
  · intro armed
    obtain ⟨⟨kind, host⟩, armed⟩ := Option.isSome_iff_exists.mp armed
    exact ⟨kind, _, (sound.requests.timers _ _ _).mp armed, rfl⟩
  · rintro ⟨kind, ⟨host, request⟩, member, rfl⟩
    have armed := (sound.requests.timers request kind host).mpr member
    rw [JsMap.has, armed]
    rfl

end OxeeUI.Relay.RelayPublicAssignmentAdmission
