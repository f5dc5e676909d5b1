import Mathlib.Tactic.Tauto
import OxeeUI.Library.Handles
import OxeeUI.Relay.AssignmentAdmission

/-!
# Leases, queues and requests of the admission

The counters and host sets are what the leases amount to, no host holds or waits for what
excludes what it has, and every request is answered once or waits with its timer.
-/

namespace OxeeUI.Relay

open OxeeUI.Library

def AssignmentAdmissionLease.isLive (lease : AssignmentAdmissionLease) : Bool := !lease.released

def AssignmentAdmissionLease.isLiveOf (kind : LeaseKind) (lease : AssignmentAdmissionLease) :
    Bool :=
  !lease.released ∧ lease.kind = kind

namespace RelayPublicAssignmentAdmission

variable {options : AdmissionOptions} {admission next : RelayPublicAssignmentAdmission}

def activeHosts (admission : RelayPublicAssignmentAdmission) : LeaseKind → Finset String
  | .placement => admission.activeAssignmentHosts
  | .reserved => admission.activeReservedHosts
  | .drainReturn => admission.activeDrainReturnHosts

def waiting (admission : RelayPublicAssignmentAdmission) : LeaseKind → List PendingAssignment
  | .placement => admission.pendingAssignments
  | .reserved => admission.pendingReserved.toList
  | .drainReturn => admission.pendingDrainReturns

def queuedHosts (admission : RelayPublicAssignmentAdmission) : LeaseKind → Finset String
  | .placement => admission.queuedAssignmentHosts
  | .reserved => (admission.pendingReserved.toList.map PendingAssignment.relayHostId).toFinset
  | .drainReturn => admission.queuedDrainReturnHosts

def Holds (admission : RelayPublicAssignmentAdmission) (kind : LeaseKind) (host : String) : Prop :=
  ∃ (handle : Nat) (lease : AssignmentAdmissionLease), admission.leases[handle]? = some lease ∧
    lease.isLiveOf kind = true ∧ lease.relayHostId = host

structure LeasesSound (admission : RelayPublicAssignmentAdmission) : Prop where
  active : admission.active = admission.leases.countP (·.isLive)
  reserved : admission.activeReserved = admission.leases.countP (·.isLiveOf .reserved)
  drainReturn : admission.activeDrainReturn = admission.leases.countP (·.isLiveOf .drainReturn)
  hosts : ∀ kind host, host ∈ admission.activeHosts kind ↔ admission.Holds kind host
  single : ∀ kind (first second : Nat) (lease lease' : AssignmentAdmissionLease),
    admission.leases[first]? = some lease → admission.leases[second]? = some lease' →
      lease.isLiveOf kind = true → lease'.isLiveOf kind = true →
        lease.relayHostId = lease'.relayHostId → first = second

structure QueuesSound (admission : RelayPublicAssignmentAdmission) : Prop where
  apart : ∀ host ∈ admission.activeHosts .placement, host ∉ admission.activeHosts .reserved
  idle : ∀ kind, ∀ pending ∈ admission.waiting kind,
    pending.relayHostId ∉ admission.activeHosts kind
  placements : ∀ pending ∈ admission.waiting .placement,
    pending.relayHostId ∉ admission.activeHosts .reserved ∧
      ∀ reserved ∈ admission.waiting .reserved, reserved.relayHostId ≠ pending.relayHostId
  distinct : ∀ kind, ((admission.waiting kind).map PendingAssignment.relayHostId).Nodup
  queued : ∀ kind host, host ∈ admission.queuedHosts kind ↔
    host ∈ (admission.waiting kind).map PendingAssignment.relayHostId

/-- Every request was answered once, waits with its timer, or is in hand. -/
structure RequestsSound (hand : Option Nat) (admission : RelayPublicAssignmentAdmission) :
    Prop where
  timers : ∀ request kind host, admission.timers.get? request = some (kind, host) ↔
    ⟨host, request⟩ ∈ admission.waiting kind
  once : (admission.answers.map Prod.fst).Nodup
  all : ∀ request, request < admission.requests ↔
    request ∈ admission.answers.map Prod.fst ∨ admission.timers.has request = true ∨
      hand = some request
  answered : ∀ request ∈ admission.answers.map Prod.fst, admission.timers.has request = false ∧
    hand ≠ some request
  free : ∀ request, hand = some request → admission.timers.has request = false

structure Capped (options : AdmissionOptions) (admission : RelayPublicAssignmentAdmission) :
    Prop where
  active : admission.active ≤ options.maxConcurrent
  reserved : admission.activeReserved + (admission.waiting .reserved).length ≤
    options.maxReservedConcurrent
  drainReturn : admission.activeDrainReturn ≤ options.maxDrainReturnConcurrent

structure Sound (options : AdmissionOptions) (hand : Option Nat)
    (admission : RelayPublicAssignmentAdmission) : Prop where
  leases : admission.LeasesSound
  queues : admission.QueuesSound
  requests : admission.RequestsSound hand
  capped : admission.Capped options

/-! ## What the invariant does not read -/

structure SameLeases (admission next : RelayPublicAssignmentAdmission) : Prop where
  active : next.active = admission.active
  reserved : next.activeReserved = admission.activeReserved
  drainReturn : next.activeDrainReturn = admission.activeDrainReturn
  hosts : next.activeHosts = admission.activeHosts
  leases : next.leases = admission.leases

structure SameQueues (admission next : RelayPublicAssignmentAdmission) : Prop where
  waiting : next.waiting = admission.waiting
  queued : next.queuedHosts = admission.queuedHosts

structure SameRequests (admission next : RelayPublicAssignmentAdmission) : Prop where
  requests : next.requests = admission.requests
  answers : next.answers = admission.answers
  timers : next.timers = admission.timers

variable {hand : Option Nat}

theorem LeasesSound.of_same (sound : admission.LeasesSound) (same : admission.SameLeases next) :
    next.LeasesSound := by
  refine ⟨?_, ?_, ?_, ?_, ?_⟩
  · rw [same.active, same.leases]
    exact sound.active
  · rw [same.reserved, same.leases]
    exact sound.reserved
  · rw [same.drainReturn, same.leases]
    exact sound.drainReturn
  · unfold Holds
    rw [same.hosts, same.leases]
    exact sound.hosts
  · rw [same.leases]
    exact sound.single

theorem QueuesSound.of_same (sound : admission.QueuesSound)
    (hosts : next.activeHosts = admission.activeHosts) (same : admission.SameQueues next) :
    next.QueuesSound := by
  refine ⟨?_, ?_, ?_, ?_, ?_⟩
  · rw [hosts]
    exact sound.apart
  · rw [same.waiting, hosts]
    exact sound.idle
  · rw [same.waiting, hosts]
    exact sound.placements
  · rw [same.waiting]
    exact sound.distinct
  · rw [same.waiting, same.queued]
    exact sound.queued

theorem Capped.of_same (capped : admission.Capped options) (leases : admission.SameLeases next)
    (waiting : next.waiting = admission.waiting) : next.Capped options := by
  refine ⟨?_, ?_, ?_⟩
  · rw [leases.active]
    exact capped.active
  · rw [leases.reserved, waiting]
    exact capped.reserved
  · rw [leases.drainReturn]
    exact capped.drainReturn

theorem Sound.of_same (sound : admission.Sound options hand) (leases : admission.SameLeases next)
    (queues : admission.SameQueues next) (requests : admission.SameRequests next) :
    next.Sound options hand := by
  refine ⟨sound.leases.of_same leases, sound.queues.of_same leases.hosts queues, ?_,
    sound.capped.of_same leases queues.waiting⟩
  refine ⟨?_, ?_, ?_, ?_, ?_⟩
  · rw [requests.timers, queues.waiting]
    exact sound.requests.timers
  · rw [requests.answers]
    exact sound.requests.once
  · rw [requests.answers, requests.timers, requests.requests]
    exact sound.requests.all
  · rw [requests.answers, requests.timers]
    exact sound.requests.answered
  · rw [requests.timers]
    exact sound.requests.free

theorem Sound.recordGrant (sound : admission.Sound options hand) (relayHostId : String)
    (kind : LeaseKind) : (admission.recordGrant options relayHostId kind).Sound options hand := by
  cases kind <;> exact sound.of_same ⟨rfl, rfl, rfl, rfl, rfl⟩ ⟨rfl, rfl⟩ ⟨rfl, rfl, rfl⟩

theorem Sound.readClock (sound : admission.Sound options hand) :
    admission.readClock.Sound options hand :=
  sound.of_same ⟨rfl, rfl, rfl, rfl, rfl⟩ ⟨rfl, rfl⟩ ⟨rfl, rfl, rfl⟩

/-! ## Requests and answers -/

theorem Sound.openRequest (sound : admission.Sound options none) :
    admission.openRequest.1.Sound options (some admission.requests) := by
  have unused : ∀ request, ¬request < admission.requests →
      request ∉ admission.answers.map Prod.fst ∧ admission.timers.has request = false := by
    intro request later
    rw [sound.requests.all, not_or, not_or] at later
    exact ⟨later.1, Bool.eq_false_of_not_eq_true later.2.1⟩
  refine ⟨sound.leases.of_same ⟨rfl, rfl, rfl, rfl, rfl⟩, sound.queues.of_same rfl ⟨rfl, rfl⟩,
    ⟨sound.requests.timers, sound.requests.once, ?_, ?_, ?_⟩,
    sound.capped.of_same ⟨rfl, rfl, rfl, rfl, rfl⟩ rfl⟩
  · intro request
    have before := sound.requests.all request
    show request < admission.requests + 1 ↔ request ∈ admission.answers.map Prod.fst ∨
      admission.timers.has request = true ∨ some admission.requests = some request
    simp only [reduceCtorEq, or_false, Option.some.injEq] at before ⊢
    rw [Nat.lt_succ_iff_lt_or_eq, before]
    tauto
  · intro request given
    refine ⟨(sound.requests.answered request given).1, fun same => ?_⟩
    obtain rfl := Option.some.inj same
    exact (unused _ (Nat.lt_irrefl _)).1 given
  · intro request same
    obtain rfl := Option.some.inj same
    exact (unused _ (Nat.lt_irrefl _)).2

theorem Sound.answer {request : Nat} (sound : admission.Sound options (some request))
    (given : AdmissionAnswer) : (admission.answer request given).Sound options none := by
  have answers : (admission.answers ++ [(request, given)]).map Prod.fst =
      admission.answers.map Prod.fst ++ [request] := by
    rw [List.map_append, List.map_singleton]
  refine ⟨sound.leases.of_same ⟨rfl, rfl, rfl, rfl, rfl⟩, sound.queues.of_same rfl ⟨rfl, rfl⟩,
    ⟨sound.requests.timers, ?_, ?_, ?_, by simp⟩,
    sound.capped.of_same ⟨rfl, rfl, rfl, rfl, rfl⟩ rfl⟩
  · show ((admission.answers ++ [(request, given)]).map Prod.fst).Nodup
    rw [answers]
    refine List.nodup_append.mpr ⟨sound.requests.once, List.nodup_singleton _, ?_⟩
    intro first member second last same
    rw [List.mem_singleton.mp last] at same
    exact (sound.requests.answered first member).2 (same ▸ rfl)
  · intro other
    show other < admission.requests ↔ other ∈ (admission.answers ++ [(request, given)]).map Prod.fst ∨
      admission.timers.has other = true ∨ none = some other
    rw [answers, List.mem_append, List.mem_singleton, sound.requests.all]
    simp only [Option.some.injEq, reduceCtorEq, or_false]
    tauto
  · intro other member
    rw [show (admission.answer request given).answers.map Prod.fst = _ from answers,
      List.mem_append, List.mem_singleton] at member
    refine ⟨?_, by simp⟩
    rcases member with early | rfl
    · exact (sound.requests.answered other early).1
    · exact sound.requests.free other rfl

theorem Sound.reject {request : Nat} (sound : admission.Sound options (some request))
    (reason : AssignmentAdmissionRejection) :
    (admission.reject request reason).Sound options none := by
  have told : Sound options (some request)
      { admission with reported := admission.reported ++ [reason] } :=
    sound.of_same ⟨rfl, rfl, rfl, rfl, rfl⟩ ⟨rfl, rfl⟩ ⟨rfl, rfl, rfl⟩
  exact told.answer _

/-! ## Leases -/

structure Free (admission : RelayPublicAssignmentAdmission) (host : String) (kind : LeaseKind) :
    Prop where
  own : host ∉ admission.activeHosts kind
  unqueued : ∀ pending ∈ admission.waiting kind, pending.relayHostId ≠ host
  placement : kind = .placement → host ∉ admission.activeHosts .reserved
  reserved : kind = .reserved → host ∉ admission.activeHosts .placement ∧
    ∀ pending ∈ admission.waiting .placement, pending.relayHostId ≠ host

structure Room (options : AdmissionOptions) (admission : RelayPublicAssignmentAdmission)
    (kind : LeaseKind) : Prop where
  active : admission.active < options.maxConcurrent
  reserved : kind = .reserved → admission.activeReserved + (admission.waiting .reserved).length <
    options.maxReservedConcurrent
  drainReturn : kind = .drainReturn →
    admission.activeDrainReturn < options.maxDrainReturnConcurrent

variable {host : String} {kind : LeaseKind}

theorem activeHosts_addLease (other : LeaseKind) :
    (admission.addLease host kind).activeHosts other =
      if other = kind then insert host (admission.activeHosts other)
      else admission.activeHosts other := by
  cases kind <;> cases other <;> rfl

theorem leases_addLease :
    (admission.addLease host kind).leases = admission.leases ++ [⟨host, kind, false⟩] := by
  cases kind <;> rfl

theorem waiting_addLease : (admission.addLease host kind).waiting = admission.waiting := by
  cases kind <;> rfl

theorem isLiveOf_new (other : LeaseKind) :
    (AssignmentAdmissionLease.mk host kind false).isLiveOf other = decide (kind = other) := by
  simp [AssignmentAdmissionLease.isLiveOf]

theorem holds_addLease (other : LeaseKind) (held : String) :
    (admission.addLease host kind).Holds other held ↔
      admission.Holds other held ∨ (kind = other ∧ host = held) := by
  unfold Holds
  simp only [leases_addLease, getElem?_append_singleton_eq_some]
  constructor
  · rintro ⟨handle, lease, old | ⟨-, rfl⟩, live, rfl⟩
    · exact Or.inl ⟨handle, lease, old, live, rfl⟩
    · rw [isLiveOf_new, decide_eq_true_eq] at live
      exact Or.inr ⟨live, rfl⟩
  · rintro (⟨handle, lease, found, live, rfl⟩ | ⟨rfl, rfl⟩)
    · exact ⟨handle, lease, Or.inl found, live, rfl⟩
    · exact ⟨_, _, Or.inr ⟨rfl, rfl⟩, by simp [isLiveOf_new], rfl⟩

theorem LeasesSound.addLease (sound : admission.LeasesSound)
    (own : host ∉ admission.activeHosts kind) : (admission.addLease host kind).LeasesSound where
  active := by
    rw [leases_addLease, countP_append_singleton]
    rw [← sound.active]
    cases kind <;> rfl
  reserved := by
    rw [leases_addLease, countP_append_singleton, isLiveOf_new]
    rw [← sound.reserved]
    cases kind <;> rfl
  drainReturn := by
    rw [leases_addLease, countP_append_singleton, isLiveOf_new]
    rw [← sound.drainReturn]
    cases kind <;> rfl
  hosts := by
    intro other held
    rw [activeHosts_addLease, holds_addLease, ← sound.hosts]
    split
    case isTrue same =>
      rw [Finset.mem_insert, same]
      constructor
      · rintro (rfl | member)
        · exact Or.inr ⟨rfl, rfl⟩
        · exact Or.inl member
      · rintro (member | ⟨-, rfl⟩)
        · exact Or.inr member
        · exact Or.inl rfl
    case isFalse different =>
      exact ⟨Or.inl, fun held => held.resolve_right fun new => different new.1.symm⟩
  single := by
    have apart : ∀ (handle : Nat) (lease : AssignmentAdmissionLease),
        admission.leases[handle]? = some lease → lease.isLiveOf kind = true →
          lease.relayHostId ≠ host := by
      rintro handle lease found live rfl
      exact own ((sound.hosts kind _).mpr ⟨handle, lease, found, live, rfl⟩)
    intro other first second lease lease' found found' live live' sameHost
    rw [leases_addLease, getElem?_append_singleton_eq_some] at found found'
    rcases found with old | ⟨rfl, rfl⟩ <;> rcases found' with old' | ⟨rfl, rfl⟩
    · exact sound.single other first second lease lease' old old' live live' sameHost
    · rw [isLiveOf_new, decide_eq_true_eq] at live'
      exact absurd sameHost (apart first lease old (live' ▸ live))
    · rw [isLiveOf_new, decide_eq_true_eq] at live
      exact absurd sameHost.symm (apart second lease' old' (live ▸ live'))
    · rfl

theorem Sound.addLease (sound : admission.Sound options hand) (free : admission.Free host kind)
    (room : admission.Room options kind) : (admission.addLease host kind).Sound options hand where
  leases := sound.leases.addLease free.own
  queues := by
    refine ⟨?_, ?_, ?_, ?_, ?_⟩
    · intro held member
      rw [activeHosts_addLease] at member ⊢
      cases kind with
      | placement =>
        rw [if_pos rfl, Finset.mem_insert] at member
        rw [if_neg (by decide)]
        rcases member with rfl | member
        · exact free.placement rfl
        · exact sound.queues.apart held member
      | reserved =>
        rw [if_neg (by decide)] at member
        rw [if_pos rfl, Finset.mem_insert, not_or]
        refine ⟨?_, sound.queues.apart held member⟩
        rintro rfl
        exact (free.reserved rfl).1 member
      | drainReturn =>
        rw [if_neg (by decide)] at member ⊢
        exact sound.queues.apart held member
    · intro other pending member
      rw [waiting_addLease] at member
      rw [activeHosts_addLease]
      split
      case isTrue same =>
        rw [Finset.mem_insert, not_or]
        exact ⟨free.unqueued pending (same ▸ member), sound.queues.idle other pending member⟩
      case isFalse => exact sound.queues.idle other pending member
    · intro pending member
      rw [waiting_addLease] at member ⊢
      obtain ⟨unreserved, alone⟩ := sound.queues.placements pending member
      refine ⟨?_, alone⟩
      rw [activeHosts_addLease]
      split
      case isTrue same =>
        rw [Finset.mem_insert, not_or]
        exact ⟨(free.reserved same.symm).2 pending member, unreserved⟩
      case isFalse => exact unreserved
    · rw [waiting_addLease]
      exact sound.queues.distinct
    · rw [waiting_addLease, show (admission.addLease host kind).queuedHosts = admission.queuedHosts
        by cases kind <;> rfl]
      exact sound.queues.queued
  requests := by
    have same : admission.SameRequests (admission.addLease host kind) := by
      cases kind <;> exact ⟨rfl, rfl, rfl⟩
    refine ⟨?_, ?_, ?_, ?_, ?_⟩
    · rw [same.timers, waiting_addLease]
      exact sound.requests.timers
    · rw [same.answers]
      exact sound.requests.once
    · rw [same.answers, same.timers, same.requests]
      exact sound.requests.all
    · rw [same.answers, same.timers]
      exact sound.requests.answered
    · rw [same.timers]
      exact sound.requests.free
  capped := by
    have capped := sound.capped
    refine ⟨?_, ?_, ?_⟩
    · have active : (admission.addLease host kind).active = admission.active + 1 := by
        cases kind <;> rfl
      rw [active]
      exact room.active
    · rw [waiting_addLease]
      cases kind with
      | placement => exact capped.reserved
      | reserved =>
        show admission.activeReserved + 1 + _ ≤ _
        have below := room.reserved rfl
        omega
      | drainReturn => exact capped.reserved
    · cases kind with
      | placement => exact capped.drainReturn
      | reserved => exact capped.drainReturn
      | drainReturn => exact room.drainReturn rfl

theorem Sound.createLease {request : Nat} (sound : admission.Sound options (some request))
    (free : admission.Free host kind) (room : admission.Room options kind) :
    (admission.createLease request host kind).Sound options none :=
  (sound.addLease free room).answer _

/-! ## Releases -/

theorem activeHosts_endLease (handle : Nat) (lease : AssignmentAdmissionLease)
    (other : LeaseKind) :
    (admission.endLease handle lease).activeHosts other =
      if other = lease.kind then (admission.activeHosts other).erase lease.relayHostId
      else admission.activeHosts other := by
  unfold endLease
  cases lease.kind <;> cases other <;> rfl

theorem leases_endLease (handle : Nat) (lease : AssignmentAdmissionLease) :
    (admission.endLease handle lease).leases =
      admission.leases.set handle { lease with released := true } := by
  unfold endLease
  cases lease.kind <;> rfl

theorem waiting_endLease (handle : Nat) (lease : AssignmentAdmissionLease) :
    (admission.endLease handle lease).waiting = admission.waiting := by
  unfold endLease
  cases lease.kind <;> rfl

theorem not_isLiveOf_released (lease : AssignmentAdmissionLease) (other : LeaseKind) :
    AssignmentAdmissionLease.isLiveOf other { lease with released := true } = false := by
  simp [AssignmentAdmissionLease.isLiveOf]

theorem getElem?_endLease {handle other : Nat} {lease lease' : AssignmentAdmissionLease}
    (found : admission.leases[handle]? = some lease) (live : lease'.isLiveOf kind = true) :
    (admission.endLease handle lease).leases[other]? = some lease' ↔
      other ≠ handle ∧ admission.leases[other]? = some lease' := by
  rw [leases_endLease]
  by_cases same : other = handle
  · subst same
    rw [List.getElem?_set_self (List.getElem?_eq_some_iff.mp found).1]
    constructor
    · intro ended
      rw [← Option.some.inj ended, not_isLiveOf_released] at live
      cases live
    · exact fun stays => absurd rfl stays.1
  · rw [List.getElem?_set_ne (Ne.symm same)]
    exact ⟨fun found => ⟨same, found⟩, And.right⟩

theorem LeasesSound.endLease (sound : admission.LeasesSound) {handle : Nat}
    {lease : AssignmentAdmissionLease} (found : admission.leases[handle]? = some lease)
    (held : lease.released = false) : (admission.endLease handle lease).LeasesSound where
  active := by
    have counted := countP_set_add found (·.isLive) { lease with released := true }
    rw [leases_endLease]
    have active : (admission.endLease handle lease).active = admission.active - 1 := by
      unfold RelayPublicAssignmentAdmission.endLease
      cases lease.kind <;> rfl
    have before := sound.active
    simp only [AssignmentAdmissionLease.isLive, held, Bool.not_false, Bool.not_true, if_true,
      Bool.false_eq_true, if_false] at counted
    simp only [AssignmentAdmissionLease.isLive] at before ⊢
    omega
  reserved := by
    have counted := countP_set_add found (·.isLiveOf .reserved) { lease with released := true }
    rw [leases_endLease]
    have before := sound.reserved
    rw [not_isLiveOf_released] at counted
    unfold RelayPublicAssignmentAdmission.endLease
    cases of : lease.kind <;>
      simp [AssignmentAdmissionLease.isLiveOf, held, of] at counted before ⊢ <;> omega
  drainReturn := by
    have counted := countP_set_add found (·.isLiveOf .drainReturn) { lease with released := true }
    rw [leases_endLease]
    have before := sound.drainReturn
    rw [not_isLiveOf_released] at counted
    unfold RelayPublicAssignmentAdmission.endLease
    cases of : lease.kind <;>
      simp [AssignmentAdmissionLease.isLiveOf, held, of] at counted before ⊢ <;> omega
  hosts := by
    have live : lease.isLiveOf lease.kind = true := by
      simp [AssignmentAdmissionLease.isLiveOf, held]
    intro other host
    have holds : (admission.endLease handle lease).Holds other host ↔
        admission.Holds other host ∧ ¬(other = lease.kind ∧ host = lease.relayHostId) := by
      constructor
      · rintro ⟨handle', lease', found', live', rfl⟩
        obtain ⟨elsewhere, stored⟩ := (getElem?_endLease found live').mp found'
        refine ⟨⟨handle', lease', stored, live', rfl⟩, ?_⟩
        rintro ⟨rfl, sameHost⟩
        exact elsewhere (sound.single _ _ _ lease' lease stored found live' live sameHost)
      · rintro ⟨⟨handle', lease', stored, live', rfl⟩, different⟩
        refine ⟨handle', lease', (getElem?_endLease found live').mpr ⟨?_, stored⟩, live', rfl⟩
        rintro rfl
        obtain rfl := Option.some.inj (found.symm.trans stored)
        have kind := (of_decide_eq_true live').2
        exact different ⟨kind.symm, rfl⟩
    rw [holds, activeHosts_endLease, ← sound.hosts]
    split
    case isTrue same =>
      rw [Finset.mem_erase]
      tauto
    case isFalse different => tauto
  single := by
    intro other first second lease' lease'' found' found'' live' live'' sameHost
    obtain ⟨-, stored⟩ := (getElem?_endLease found live').mp found'
    obtain ⟨-, stored'⟩ := (getElem?_endLease found live'').mp found''
    exact sound.single other first second lease' lease'' stored stored' live' live'' sameHost

theorem activeHosts_endLease_subset {handle : Nat} {lease : AssignmentAdmissionLease}
    {other : LeaseKind} {host : String}
    (member : host ∈ (admission.endLease handle lease).activeHosts other) :
    host ∈ admission.activeHosts other := by
  rw [activeHosts_endLease] at member
  split at member
  case isTrue => exact Finset.mem_of_mem_erase member
  case isFalse => exact member

theorem Sound.endLease (sound : admission.Sound options hand) {handle : Nat}
    {lease : AssignmentAdmissionLease} (found : admission.leases[handle]? = some lease)
    (held : lease.released = false) : (admission.endLease handle lease).Sound options hand where
  leases := sound.leases.endLease found held
  queues := by
    have queued : (admission.endLease handle lease).queuedHosts = admission.queuedHosts := by
      unfold RelayPublicAssignmentAdmission.endLease
      cases lease.kind <;> rfl
    refine ⟨?_, ?_, ?_, ?_, ?_⟩
    · exact fun host member reserved => sound.queues.apart host
        (activeHosts_endLease_subset member) (activeHosts_endLease_subset reserved)
    · rw [waiting_endLease]
      exact fun other pending member active =>
        sound.queues.idle other pending member (activeHosts_endLease_subset active)
    · rw [waiting_endLease]
      intro pending member
      obtain ⟨unreserved, alone⟩ := sound.queues.placements pending member
      exact ⟨fun active => unreserved (activeHosts_endLease_subset active), alone⟩
    · rw [waiting_endLease]
      exact sound.queues.distinct
    · rw [waiting_endLease, queued]
      exact sound.queues.queued
  requests := by
    have same : admission.SameRequests (admission.endLease handle lease) := by
      unfold RelayPublicAssignmentAdmission.endLease
      cases lease.kind <;> exact ⟨rfl, rfl, rfl⟩
    refine ⟨?_, ?_, ?_, ?_, ?_⟩
    · rw [same.timers, waiting_endLease]
      exact sound.requests.timers
    · rw [same.answers]
      exact sound.requests.once
    · rw [same.answers, same.timers, same.requests]
      exact sound.requests.all
    · rw [same.answers, same.timers]
      exact sound.requests.answered
    · rw [same.timers]
      exact sound.requests.free
  capped := by
    have fewer : (admission.endLease handle lease).active ≤ admission.active ∧
        (admission.endLease handle lease).activeReserved ≤ admission.activeReserved ∧
        (admission.endLease handle lease).activeDrainReturn ≤ admission.activeDrainReturn := by
      unfold RelayPublicAssignmentAdmission.endLease
      cases lease.kind <;> simp
    refine ⟨fewer.1.trans sound.capped.active, ?_, fewer.2.2.trans sound.capped.drainReturn⟩
    rw [waiting_endLease]
    exact (Nat.add_le_add_right fewer.2.1 _).trans sound.capped.reserved

/-! ## Queues -/

/-- A request in hand joins a queue, and its timer starts. -/
structure Joins (host : String) (request : Nat) (kind : LeaseKind)
    (admission next : RelayPublicAssignmentAdmission) : Prop where
  leases : admission.SameLeases next
  waiting : ∀ other, next.waiting other =
    if other = kind then admission.waiting other ++ [⟨host, request⟩] else admission.waiting other
  queued : ∀ other held, held ∈ next.queuedHosts other ↔
    held ∈ admission.queuedHosts other ∨ (other = kind ∧ held = host)
  timers : next.timers = admission.timers.set request (kind, host)
  requests : next.requests = admission.requests
  answers : next.answers = admission.answers

/-- A request leaves a queue, and its timer stops. -/
structure Leaves (pending : PendingAssignment) (kind : LeaseKind)
    (admission next : RelayPublicAssignmentAdmission) : Prop where
  leases : admission.SameLeases next
  left : (admission.waiting kind).Perm (pending :: next.waiting kind)
  waiting : ∀ other, other ≠ kind → next.waiting other = admission.waiting other
  queued : ∀ other held, held ∈ next.queuedHosts other ↔
    held ∈ admission.queuedHosts other ∧ ¬(other = kind ∧ held = pending.relayHostId)
  timers : next.timers = admission.timers.delete pending.request
  requests : next.requests = admission.requests
  answers : next.answers = admission.answers

structure MayWait (admission : RelayPublicAssignmentAdmission) (host : String) (kind : LeaseKind) :
    Prop where
  own : host ∉ admission.activeHosts kind
  unqueued : ∀ pending ∈ admission.waiting kind, pending.relayHostId ≠ host
  placement : kind = .placement → host ∉ admission.activeHosts .reserved ∧
    ∀ reserved ∈ admission.waiting .reserved, reserved.relayHostId ≠ host
  reserved : kind = .reserved →
    ∀ pending ∈ admission.waiting .placement, pending.relayHostId ≠ host

theorem Sound.joins {request : Nat} (sound : admission.Sound options (some request))
    (joins : Joins host request kind admission next) (waits : admission.MayWait host kind)
    (room : kind = .reserved → admission.activeReserved + (admission.waiting .reserved).length <
      options.maxReservedConcurrent) : next.Sound options none where
  leases := sound.leases.of_same joins.leases
  queues := by
    have member_iff : ∀ other (pending : PendingAssignment), pending ∈ next.waiting other ↔
        pending ∈ admission.waiting other ∨ (other = kind ∧ pending = ⟨host, request⟩) := by
      intro other pending
      rw [joins.waiting]
      split
      case isTrue same => simp [same]
      case isFalse different => simp [different]
    refine ⟨?_, ?_, ?_, ?_, ?_⟩
    · rw [joins.leases.hosts]
      exact sound.queues.apart
    · intro other pending member
      rw [joins.leases.hosts]
      rcases (member_iff other pending).mp member with old | ⟨rfl, rfl⟩
      · exact sound.queues.idle other pending old
      · exact waits.own
    · intro pending member
      rw [joins.leases.hosts]
      refine ⟨?_, fun reserved member' => ?_⟩
      · rcases (member_iff _ pending).mp member with old | ⟨same, rfl⟩
        · exact (sound.queues.placements pending old).1
        · exact (waits.placement same.symm).1
      · rcases (member_iff _ reserved).mp member' with old' | ⟨same', rfl⟩ <;>
          rcases (member_iff _ pending).mp member with old | ⟨same, rfl⟩
        · exact (sound.queues.placements pending old).2 reserved old'
        · exact (waits.placement same.symm).2 reserved old'
        · exact (waits.reserved same'.symm pending old).symm
        · exact absurd (same.trans same'.symm) (by decide)
    · intro other
      rw [joins.waiting]
      split
      case isTrue same =>
        rw [List.map_append, List.map_singleton]
        refine List.nodup_append.mpr ⟨sound.queues.distinct other, List.nodup_singleton _, ?_⟩
        intro first member second last sameHost
        obtain ⟨pending, stored, rfl⟩ := List.mem_map.mp member
        exact waits.unqueued pending (same ▸ stored) (sameHost.trans (List.mem_singleton.mp last))
      case isFalse => exact sound.queues.distinct other
    · intro other held
      rw [joins.queued, sound.queues.queued, joins.waiting]
      split
      case isTrue same => simp [same]
      case isFalse different => simp [different]
  requests := by
    have unused := sound.requests.free request rfl
    refine ⟨?_, ?_, ?_, ?_, by simp⟩
    · intro other otherKind held
      rw [joins.timers, JsMap.get?_set, joins.waiting]
      by_cases same : other = request
      · subst same
        rw [if_pos rfl, Option.some.injEq, Prod.mk.injEq]
        have absent : ∀ otherKind held, ⟨held, other⟩ ∉ admission.waiting otherKind := by
          intro otherKind held member
          rw [← sound.requests.timers] at member
          rw [JsMap.has, member] at unused
          cases unused
        split
        case isTrue sameKind =>
          rw [List.mem_append, List.mem_singleton]
          constructor
          · rintro ⟨-, rfl⟩
            exact Or.inr rfl
          · rintro (old | new)
            · exact absurd old (absent _ _)
            · exact ⟨sameKind.symm, (PendingAssignment.mk.inj new).1.symm⟩
        case isFalse different =>
          exact ⟨fun same => absurd same.1.symm different, fun old => absurd old (absent _ _)⟩
      · rw [if_neg same, sound.requests.timers]
        split
        case isTrue =>
          rw [List.mem_append, List.mem_singleton]
          exact ⟨Or.inl, fun member =>
            member.resolve_right fun new => same (PendingAssignment.mk.inj new).2⟩
        case isFalse => exact Iff.rfl
    · rw [joins.answers]
      exact sound.requests.once
    · intro other
      rw [joins.requests, joins.answers, joins.timers, sound.requests.all, JsMap.has_iff_mem_keys,
        JsMap.has_iff_mem_keys, JsMap.mem_keys_set]
      simp only [Option.some.injEq, reduceCtorEq, or_false]
      tauto
    · intro other given
      rw [joins.answers] at given
      obtain ⟨idle, elsewhere⟩ := sound.requests.answered other given
      have apart : other ≠ request := by
        rintro rfl
        exact elsewhere rfl
      refine ⟨?_, by simp⟩
      rw [joins.timers, JsMap.has, JsMap.get?_set_of_ne _ _ apart]
      exact idle
  capped := by
    refine ⟨?_, ?_, ?_⟩
    · rw [joins.leases.active]
      exact sound.capped.active
    · rw [joins.leases.reserved, joins.waiting]
      split
      case isTrue same =>
        have below := room same.symm
        rw [List.length_append, List.length_singleton]
        omega
      case isFalse => exact sound.capped.reserved
    · rw [joins.leases.drainReturn]
      exact sound.capped.drainReturn

namespace Leaves

variable {pending : PendingAssignment} (leaves : Leaves pending kind admission next)
include leaves

theorem mem_waiting {other : LeaseKind} {left : PendingAssignment}
    (member : left ∈ next.waiting other) : left ∈ admission.waiting other := by
  by_cases same : other = kind
  · subst same
    exact leaves.left.mem_iff.mpr (List.mem_cons_of_mem _ member)
  · rwa [leaves.waiting other same] at member

theorem mem_of_left : pending ∈ admission.waiting kind :=
  leaves.left.mem_iff.mpr List.mem_cons_self

theorem distinct (sound : admission.QueuesSound) :
    pending.relayHostId ∉ (next.waiting kind).map PendingAssignment.relayHostId ∧
      ((next.waiting kind).map PendingAssignment.relayHostId).Nodup := by
  have distinct := ((leaves.left.map PendingAssignment.relayHostId).nodup_iff).mp
    (sound.distinct kind)
  rwa [List.map_cons, List.nodup_cons] at distinct

theorem queuesSound (sound : admission.QueuesSound) : next.QueuesSound := by
  refine ⟨?_, ?_, ?_, ?_, ?_⟩
  · rw [leaves.leases.hosts]
    exact sound.apart
  · rw [leaves.leases.hosts]
    exact fun other left member => sound.idle other left (leaves.mem_waiting member)
  · rw [leaves.leases.hosts]
    intro left member
    obtain ⟨unreserved, alone⟩ := sound.placements left (leaves.mem_waiting member)
    exact ⟨unreserved, fun reserved member' => alone reserved (leaves.mem_waiting member')⟩
  · intro other
    by_cases same : other = kind
    · exact same ▸ (leaves.distinct sound).2
    · rw [leaves.waiting other same]
      exact sound.distinct other
  · intro other held
    rw [leaves.queued, sound.queued]
    by_cases same : other = kind
    · subst same
      rw [(leaves.left.map PendingAssignment.relayHostId).mem_iff, List.map_cons, List.mem_cons]
      have gone := (leaves.distinct sound).1
      constructor
      · rintro ⟨rfl | member, different⟩
        · exact absurd ⟨rfl, rfl⟩ different
        · exact member
      · intro member
        refine ⟨Or.inr member, ?_⟩
        rintro ⟨-, rfl⟩
        exact gone member
    · rw [leaves.waiting other same]
      exact ⟨And.left, fun member => ⟨member, fun both => same both.1⟩⟩

theorem requestsSound (queues : admission.QueuesSound) (sound : admission.RequestsSound none) :
    next.RequestsSound (some pending.request) := by
  have armed := (sound.timers pending.request kind pending.relayHostId).mpr leaves.mem_of_left
  have has : admission.timers.has pending.request = true := by
    rw [JsMap.has, armed]
    rfl
  have stopped : next.timers.has pending.request = false := by
    rw [leaves.timers, JsMap.has, JsMap.get?_delete, if_pos rfl]
    rfl
  have same : ∀ other, other ≠ pending.request →
      next.timers.get? other = admission.timers.get? other := by
    intro other different
    rw [leaves.timers, JsMap.get?_delete, if_neg different]
  refine ⟨?_, ?_, ?_, ?_, ?_⟩
  · intro other otherKind held
    by_cases here : other = pending.request
    · subst here
      rw [JsMap.has, Option.isSome_eq_false_iff, Option.isNone_iff_eq_none] at stopped
      rw [stopped]
      constructor
      · intro running
        cases running
      intro member
      -- The request waited in this queue alone, and there once.
      have other := (sound.timers _ _ _).mpr (leaves.mem_waiting member)
      obtain ⟨rfl, rfl⟩ := Prod.mk.inj (Option.some.inj (armed.symm.trans other))
      exact absurd (List.mem_map_of_mem member) (leaves.distinct queues).1
    · rw [same other here, sound.timers]
      by_cases sameKind : otherKind = kind
      · subst sameKind
        rw [leaves.left.mem_iff, List.mem_cons]
        refine ⟨fun member => member.resolve_left fun new => here ?_, Or.inr⟩
        rw [← new]
      · rw [leaves.waiting otherKind sameKind]
  · rw [leaves.answers]
    exact sound.once
  · intro other
    rw [leaves.requests, leaves.answers, sound.all]
    by_cases here : other = pending.request
    · subst here
      simp [has]
    · rw [JsMap.has, JsMap.has, same other here]
      simp [Ne.symm here]
  · intro other given
    rw [leaves.answers] at given
    obtain ⟨idle, -⟩ := sound.answered other given
    have apart : other ≠ pending.request := by
      rintro rfl
      rw [has] at idle
      cases idle
    refine ⟨?_, fun same => apart (Option.some.inj same).symm⟩
    rw [JsMap.has, same other apart]
    exact idle
  · intro other hand
    obtain rfl := Option.some.inj hand
    exact stopped

theorem sound (sound : admission.Sound options none) :
    next.Sound options (some pending.request) := by
  refine ⟨sound.leases.of_same leaves.leases, leaves.queuesSound sound.queues,
    leaves.requestsSound sound.queues sound.requests, ⟨?_, ?_, ?_⟩⟩
  · rw [leaves.leases.active]
    exact sound.capped.active
  · rw [leaves.leases.reserved]
    refine le_trans (Nat.add_le_add_left ?_ _) sound.capped.reserved
    by_cases same : LeaseKind.reserved = kind
    · subst same
      rw [leaves.left.length_eq]
      exact Nat.le_succ _
    · rw [leaves.waiting _ same]
  · rw [leaves.leases.drainReturn]
    exact sound.capped.drainReturn

theorem free (sound : admission.Sound options none)
    (apart : kind = .reserved → pending.relayHostId ∉ admission.activeHosts .placement) :
    next.Free pending.relayHostId kind where
  own := by
    rw [leaves.leases.hosts]
    exact sound.queues.idle kind pending leaves.mem_of_left
  unqueued := fun left member same =>
    (leaves.distinct sound.queues).1 (same ▸ List.mem_map_of_mem member)
  placement := by
    rintro rfl
    rw [leaves.leases.hosts]
    exact (sound.queues.placements pending leaves.mem_of_left).1
  reserved := by
    rintro rfl
    rw [leaves.leases.hosts]
    refine ⟨apart rfl, fun left member same => ?_⟩
    have placed := leaves.mem_waiting member
    exact (sound.queues.placements left placed).2 pending leaves.mem_of_left same.symm

end Leaves

end RelayPublicAssignmentAdmission

end OxeeUI.Relay
