import OxeeUI.Library.JsMap
import OxeeUI.Library.Utf16
import Mathlib.Data.List.Perm.Basic
import Mathlib.Data.List.Count
import Mathlib.Data.List.Range
import Mathlib.Data.List.Perm.Subperm

/-!
# Batched control renewals

Renewals wait in a map by host until a flush sends one row for each.  A renewal
for another activity of a waiting host is deferred and is admitted again by the
flush.  Flushes do not wait for one another.
-/

namespace OxeeUI.Relay

open OxeeUI.Library

/-- A verified host id is sixteen characters of `[A-Za-z0-9_-]`. -/
structure RenewalIdentity where
  userId : Text
  relayHostId : Text
  verified : (0 : UInt16) ∉ relayHostId
deriving DecidableEq

structure ControlRenewalRequest where
  identity : RenewalIdentity
  activityId : Text
  cellId : Text
  expiresAt : Int
deriving DecidableEq

inductive ControlRenewalOutcome where
  | renewed
  | assignmentNotFound
  | activityCellNotAuthoritative
  | controlActivityNotFound
  | controlActivityMoved
  | assignmentLockUnavailable
  | invalidActivityId
  | invalidActivityExpiry
  | databaseError

def controlRenewalBatchMaxRows : ℕ := 200

/-- `[userId, relayHostId].join('\u0000')` -/
def pendingKey (request : ControlRenewalRequest) : Text :=
  request.identity.userId ++ 0 :: request.identity.relayHostId

/-- A renewal that waits in the map.  A waiter is the number of its renewal. -/
structure PendingRenewal where
  request : ControlRenewalRequest
  waiters : List ℕ
deriving DecidableEq

structure QueuedRenewal where
  request : ControlRenewalRequest
  waiter : ℕ

/-- A call of `renew`; its answer is what the database said of each row, or a failure. -/
structure RenewCall where
  rows : List PendingRenewal
  answer : Option (Option (List ControlRenewalOutcome))

/-- How a promise settled: by the outcome of a row, or by the failure of its call. -/
structure RenewalSettlement where
  waiter : ℕ
  call : ℕ
  row : ℕ
  outcome : Option ControlRenewalOutcome

/-- `enqueued` lists the renewals ever asked for, `calls` the calls ever made. -/
structure ControlRenewalBatch where
  pending : JsMap Text PendingRenewal
  deferred : List QueuedRenewal
  timer : Bool
  enqueued : List ControlRenewalRequest
  calls : List RenewCall
  settled : List RenewalSettlement

namespace ControlRenewalBatch

def initial : ControlRenewalBatch := ⟨JsMap.empty, [], false, [], [], []⟩

/-- A second renewal of one lease: the later expiry, and both waiters. -/
def merge (existing : PendingRenewal) (queued : QueuedRenewal) : PendingRenewal :=
  { request :=
      { queued.request with
        expiresAt := max existing.request.expiresAt queued.request.expiresAt }
    waiters := existing.waiters ++ [queued.waiter] }

def scheduleFlush (batch : ControlRenewalBatch) : ControlRenewalBatch := { batch with timer := true }

/-- `flush` is what a full map does at once. -/
def admitWith (flush : ControlRenewalBatch → ControlRenewalBatch) (batch : ControlRenewalBatch)
    (queued : QueuedRenewal) : ControlRenewalBatch :=
  let key := pendingKey queued.request
  match batch.pending.get? key with
  | some existing =>
    if existing.request.activityId ≠ queued.request.activityId then
      scheduleFlush { batch with deferred := batch.deferred ++ [queued] }
    else { batch with pending := batch.pending.set key (merge existing queued) }
  | none =>
    let admitted :=
      { batch with pending := batch.pending.set key ⟨queued.request, [queued.waiter]⟩ }
    if admitted.pending.size ≥ controlRenewalBatchMaxRows then flush admitted
    else scheduleFlush admitted

/-- With the way in which deferred renewals are admitted again. -/
def flushWith (again : ControlRenewalBatch → QueuedRenewal → ControlRenewalBatch)
    (batch : ControlRenewalBatch) : ControlRenewalBatch :=
  let rows := batch.pending.values
  let emptied := { batch with timer := false, pending := JsMap.empty, deferred := [] }
  let readmitted := batch.deferred.foldl again emptied
  if rows = [] then readmitted
  else { readmitted with calls := readmitted.calls ++ [⟨rows, none⟩] }

/-- A flush whose admissions flush in turn, to a depth. -/
def flushTo : ℕ → ControlRenewalBatch → ControlRenewalBatch
  | 0, batch => batch
  | depth + 1, batch => flushWith (admitWith (flushTo depth)) batch

/-- Every flush within a flush takes some deferred renewal with it. -/
def flush (batch : ControlRenewalBatch) : ControlRenewalBatch :=
  flushTo (batch.deferred.length + 1) batch

def enqueue (batch : ControlRenewalBatch) (request : ControlRenewalRequest) :
    ControlRenewalBatch :=
  admitWith flush { batch with enqueued := batch.enqueued ++ [request] }
    ⟨request, batch.enqueued.length⟩

/-- What the waiters of the rows of an answered call hear. -/
def settlements (call : ℕ) (answer : Option (List ControlRenewalOutcome)) (row : ℕ) :
    List PendingRenewal → List RenewalSettlement
  | [] => []
  | entry :: rest =>
    entry.waiters.map (fun waiter =>
        ⟨waiter, call, row, answer.map fun outcomes => outcomes[row]?.getD .databaseError⟩) ++
      settlements call answer (row + 1) rest

def finish (batch : ControlRenewalBatch) (call : ℕ)
    (answer : Option (List ControlRenewalOutcome)) : ControlRenewalBatch :=
  match batch.calls[call]? with
  | some ⟨rows, none⟩ =>
    { batch with
      calls := batch.calls.set call ⟨rows, some answer⟩
      settled := batch.settled ++ settlements call answer 0 rows }
  | _ => batch

inductive RenewalInput where
  | enqueue (request : ControlRenewalRequest)
  | timerFired
  | flush
  | finished (call : ℕ) (answer : Option (List ControlRenewalOutcome))

def step (batch : ControlRenewalBatch) : RenewalInput → ControlRenewalBatch
  | .enqueue request => batch.enqueue request
  | .timerFired => if batch.timer then flush { batch with timer := false } else batch
  | .flush => batch.flush
  | .finished call answer => batch.finish call answer

def run (inputs : List RenewalInput) : ControlRenewalBatch := inputs.foldl step initial

end ControlRenewalBatch

end OxeeUI.Relay

/-!
## The rows of waiting renewals

Every renewal asked for waits, or is in one row of one call.  Admitting one more
keeps that, and the order of the rows of each host.
-/

namespace OxeeUI.Relay

open OxeeUI.Library

def RenewCall.waiters (call : RenewCall) : List ℕ := call.rows.flatMap PendingRenewal.waiters

namespace ControlRenewalBatch

section Keys

theorem identity_of_pendingKey {first second : ControlRenewalRequest}
    (same : pendingKey first = pendingKey second) : first.identity = second.identity := by
  unfold pendingKey at same
  have ends : ∀ identity : RenewalIdentity, (identity.userId ++ 0 :: identity.relayHostId).reverse =
      identity.relayHostId.reverse ++ 0 :: identity.userId.reverse := by
    intro identity
    simp
  have tails : ∀ identity : RenewalIdentity, (identity.relayHostId.reverse ++
      0 :: identity.userId.reverse).takeWhile (· ≠ 0) = identity.relayHostId.reverse := by
    intro identity
    rw [List.takeWhile_append_of_pos]
    · simp
    · intro unit member
      rw [decide_eq_true_eq]
      rintro rfl
      exact identity.verified (List.mem_reverse.mp member)
  have reversed := congrArg List.reverse same
  rw [ends, ends] at reversed
  have hosts := congrArg (List.takeWhile (· ≠ 0)) reversed
  rw [tails, tails] at hosts
  rw [hosts] at reversed
  have users := (List.cons.inj (List.append_cancel_left reversed)).2
  obtain ⟨⟨firstUser, firstHost, _⟩, _, _, _⟩ := first
  obtain ⟨⟨secondUser, secondHost, _⟩, _, _, _⟩ := second
  rw [List.reverse_inj] at hosts users
  dsimp only at hosts users ⊢
  subst hosts users
  rfl

end Keys

section Invariant

/-- Every waiter of an entry asked for its lease, until no later than it does. -/
def Serves (enqueued : List ControlRenewalRequest) (entry : PendingRenewal) : Prop :=
  ∀ waiter ∈ entry.waiters, ∃ request, enqueued[waiter]? = some request ∧
    request.identity = entry.request.identity ∧ request.activityId = entry.request.activityId ∧
    request.expiresAt ≤ entry.request.expiresAt

structure Row (enqueued : List ControlRenewalRequest) (entry : PendingRenewal) : Prop where
  nonempty : entry.waiters ≠ []
  sorted : entry.waiters.Pairwise (· < ·)
  serves : Serves enqueued entry

def firsts (key : Text) (rows : List PendingRenewal) : List ℕ :=
  (rows.filter fun entry => pendingKey entry.request = key).filterMap fun entry =>
    entry.waiters.head?

def queuedOf (key : Text) (queue : List QueuedRenewal) : List ℕ :=
  (queue.filter fun queued => pendingKey queued.request = key).map QueuedRenewal.waiter

def waiting (batch : ControlRenewalBatch) : List ℕ :=
  batch.pending.values.flatMap PendingRenewal.waiters ++ batch.deferred.map QueuedRenewal.waiter

def sentRows (batch : ControlRenewalBatch) : List PendingRenewal :=
  batch.calls.flatMap RenewCall.rows

def sentWaiters (batch : ControlRenewalBatch) : List ℕ := batch.calls.flatMap RenewCall.waiters

/-- A call with one row for each of at most so many hosts. -/
def WellFormedCall (enqueued : List ControlRenewalRequest) (rows : List PendingRenewal) : Prop :=
  (rows.map fun entry => pendingKey entry.request).Nodup ∧
    rows.length ≤ controlRenewalBatchMaxRows ∧ ∀ entry ∈ rows, Row enqueued entry

/-- What holds between steps, and within a flush that still holds the rows it sends and
the deferred renewals it has not admitted yet. -/
structure Sound (held : List PendingRenewal) (rest : List QueuedRenewal)
    (batch : ControlRenewalBatch) : Prop where
  tickets : (batch.waiting ++ held.flatMap PendingRenewal.waiters ++
    rest.map QueuedRenewal.waiter ++ batch.sentWaiters).Perm (List.range batch.enqueued.length)
  keyed : ∀ key entry, batch.pending.get? key = some entry → pendingKey entry.request = key
  rows : ∀ entry ∈ batch.pending.values, Row batch.enqueued entry
  holding : WellFormedCall batch.enqueued held
  queued : ∀ queued ∈ batch.deferred ++ rest, batch.enqueued[queued.waiter]? = some queued.request
  waits : ∀ queued ∈ batch.deferred, pendingKey queued.request ∈ batch.pending.keys
  calls : ∀ call ∈ batch.calls, WellFormedCall batch.enqueued call.rows
  sorted : ((batch.deferred ++ rest).map QueuedRenewal.waiter).Pairwise (· < ·)
  later : ∀ queued ∈ rest, ∀ waiter ∈ batch.pending.values.flatMap PendingRenewal.waiters,
    waiter < queued.waiter
  ordered : ∀ key, (firsts key batch.sentRows ++ firsts key held ++
    firsts key batch.pending.values ++ queuedOf key (batch.deferred ++ rest)).Pairwise (· < ·)

theorem Serves.mono {enqueued : List ControlRenewalRequest} {entry : PendingRenewal}
    (serves : Serves enqueued entry) (more : List ControlRenewalRequest) :
    Serves (enqueued ++ more) entry := by
  intro waiter member
  obtain ⟨request, asked, facts⟩ := serves waiter member
  have within : waiter < enqueued.length := (List.getElem?_eq_some_iff.mp asked).1
  exact ⟨request, (List.getElem?_append_left within).trans asked, facts⟩

theorem Row.mono {enqueued : List ControlRenewalRequest} {entry : PendingRenewal}
    (row : Row enqueued entry) (more : List ControlRenewalRequest) : Row (enqueued ++ more) entry :=
  ⟨row.nonempty, row.sorted, row.serves.mono more⟩

theorem firsts_append (key : Text) (front back : List PendingRenewal) :
    firsts key (front ++ back) = firsts key front ++ firsts key back := by
  unfold firsts
  rw [List.filter_append, List.filterMap_append]

theorem queuedOf_append (key : Text) (front back : List QueuedRenewal) :
    queuedOf key (front ++ back) = queuedOf key front ++ queuedOf key back := by
  unfold queuedOf
  rw [List.filter_append, List.map_append]

theorem mem_values_of_get? {batch : ControlRenewalBatch} {key : Text} {entry : PendingRenewal}
    (found : batch.pending.get? key = some entry) : entry ∈ batch.pending.values :=
  JsMap.mem_values_iff.mpr ⟨key, found⟩

end Invariant

section Admit

variable {held : List PendingRenewal} {rest : List QueuedRenewal} {batch : ControlRenewalBatch}
  {queued : QueuedRenewal}

theorem Sound.defer (sound : Sound held (queued :: rest) batch)
    (waits : pendingKey queued.request ∈ batch.pending.keys) :
    Sound held rest (scheduleFlush { batch with deferred := batch.deferred ++ [queued] }) where
  tickets := by
    refine List.Perm.trans (List.perm_iff_count.mpr fun waiter => ?_) sound.tickets
    simp only [waiting, scheduleFlush, sentWaiters, List.map_append, List.map_cons, List.map_nil,
      List.count_append, List.count_cons, List.count_nil]
    omega
  keyed := sound.keyed
  rows := sound.rows
  holding := sound.holding
  queued other member := by
    refine sound.queued other ?_
    simpa [scheduleFlush] using member
  waits other member := by
    rcases List.mem_append.mp member with old | new
    · exact sound.waits other old
    · rw [List.mem_singleton.mp new]
      exact waits
  calls := sound.calls
  sorted := by
    have sorted := sound.sorted
    rw [List.append_cons] at sorted
    exact sorted
  later other member := sound.later other (List.mem_cons_of_mem _ member)
  ordered key := by
    have ordered := sound.ordered key
    rw [List.append_cons] at ordered
    exact ordered

theorem sublist_without (front : List QueuedRenewal) (queued : QueuedRenewal)
    (rest : List QueuedRenewal) : (front ++ rest).Sublist (front ++ queued :: rest) :=
  (List.sublist_cons_self queued rest).append_left front

theorem merge_row {enqueued : List ControlRenewalRequest} {existing : PendingRenewal}
    (row : Row enqueued existing) (asked : enqueued[queued.waiter]? = some queued.request)
    (sameKey : pendingKey existing.request = pendingKey queued.request)
    (sameActivity : existing.request.activityId = queued.request.activityId)
    (later : ∀ waiter ∈ existing.waiters, waiter < queued.waiter) :
    Row enqueued (merge existing queued) where
  nonempty := by
    unfold merge
    simp
  sorted := by
    refine List.pairwise_append.mpr ⟨row.sorted, List.pairwise_singleton _ _, ?_⟩
    intro waiter member other new
    rw [List.mem_singleton.mp new]
    exact later waiter member
  serves := by
    intro waiter member
    rcases List.mem_append.mp member with old | new
    · obtain ⟨request, found, identity, activity, bound⟩ := row.serves waiter old
      exact ⟨request, found, identity.trans (identity_of_pendingKey sameKey),
        activity.trans sameActivity, Int.le_trans bound (Int.le_max_left _ _)⟩
    · rw [List.mem_singleton.mp new]
      exact ⟨queued.request, asked, rfl, rfl, Int.le_max_right _ _⟩

theorem Sound.merge (sound : Sound held (queued :: rest) batch) {existing : PendingRenewal}
    (found : batch.pending.get? (pendingKey queued.request) = some existing)
    (sameActivity : existing.request.activityId = queued.request.activityId) :
    Sound held rest { batch with
      pending := batch.pending.set (pendingKey queued.request) (merge existing queued) } := by
  have sameKey := sound.keyed _ _ found
  have existingIn := mem_values_of_get? found
  have asked := sound.queued queued (List.mem_append_right _ List.mem_cons_self)
  have laterThan : ∀ waiter ∈ existing.waiters, waiter < queued.waiter := fun waiter member =>
    sound.later queued List.mem_cons_self waiter (List.mem_flatMap.mpr ⟨existing, existingIn, member⟩)
  have row := merge_row (sound.rows existing existingIn) asked sameKey sameActivity laterThan
  have keys : (batch.pending.set (pendingKey queued.request) (ControlRenewalBatch.merge existing
      queued)).keys = batch.pending.keys := by
    rw [JsMap.keys_set, if_pos (JsMap.mem_keys_of_get? found)]
  rcases JsMap.values_set batch.pending (pendingKey queued.request)
    (ControlRenewalBatch.merge existing queued) with ⟨none, _⟩ | ⟨front, old, back, isOld, before, after⟩
  · rw [found] at none
    cases none
  · rw [found] at isOld
    cases isOld
    constructor
    · refine List.Perm.trans (List.perm_iff_count.mpr fun waiter => ?_) sound.tickets
      have merged : (ControlRenewalBatch.merge existing queued).waiters =
          existing.waiters ++ [queued.waiter] := rfl
      simp only [waiting, sentWaiters, before, after, merged, List.map_cons, List.flatMap_append,
        List.flatMap_cons, List.count_append, List.count_cons, List.count_nil]
      omega
    · intro key entry stored
      rw [JsMap.get?_set] at stored
      split at stored
      · next same =>
        cases stored
        exact same.symm
      · exact sound.keyed key entry stored
    · intro entry member
      rw [after] at member
      rcases List.mem_append.mp member with inFront | inBack
      · exact sound.rows entry (before ▸ List.mem_append_left _ inFront)
      · rcases List.mem_cons.mp inBack with rfl | inBack
        · exact row
        · exact sound.rows entry (before ▸ List.mem_append_right _ (List.mem_cons_of_mem _ inBack))
    · exact sound.holding
    · intro other member
      exact sound.queued other ((sublist_without batch.deferred queued rest).subset member)
    · intro other member
      rw [keys]
      exact sound.waits other member
    · exact sound.calls
    · exact sound.sorted.sublist ((sublist_without batch.deferred queued rest).map _)
    · intro other member waiter inside
      rw [after, List.flatMap_append, List.flatMap_cons, List.mem_append, List.mem_append] at inside
      have isLater := sound.later other (List.mem_cons_of_mem _ member)
      rw [before, List.flatMap_append, List.flatMap_cons] at isLater
      rcases inside with inFront | inMerged | inBack
      · exact isLater waiter (List.mem_append_left _ inFront)
      · rcases List.mem_append.mp inMerged with inOld | isNew
        · exact isLater waiter (List.mem_append_right _ (List.mem_append_left _ inOld))
        · rw [List.mem_singleton.mp isNew]
          have sorted := sound.sorted
          rw [List.map_append, List.map_cons] at sorted
          have tail := (List.pairwise_append.mp sorted).2.1
          exact (List.pairwise_cons.mp tail).1 _ (List.mem_map_of_mem member)
      · exact isLater waiter (List.mem_append_right _ (List.mem_append_right _ inBack))
    · intro key
      have sameFirsts : firsts key (front ++ ControlRenewalBatch.merge existing queued :: back) =
          firsts key (front ++ existing :: back) := by
        obtain ⟨head, tail, waiters⟩ := List.exists_cons_of_ne_nil
          (sound.rows existing existingIn).nonempty
        have mergedKey : pendingKey (ControlRenewalBatch.merge existing queued).request =
            pendingKey existing.request := sameKey.symm
        have mergedHead : (ControlRenewalBatch.merge existing queued).waiters.head? =
            existing.waiters.head? := by
          unfold ControlRenewalBatch.merge
          rw [waiters]
          rfl
        unfold firsts
        simp only [List.filter_append, List.filter_cons, mergedKey, List.filterMap_append]
        split
        · rw [List.filterMap_cons, List.filterMap_cons, mergedHead]
        · rfl
      have ordered := sound.ordered key
      rw [before] at ordered
      dsimp only [sentRows]
      rw [after, sameFirsts]
      refine ordered.sublist (List.Sublist.append_left ?_ _)
      exact ((sublist_without batch.deferred queued rest).filter _).map _

theorem queuedOf_of_absent (sound : Sound held rest batch) {key : Text}
    (absent : key ∉ batch.pending.keys) : queuedOf key batch.deferred = [] := by
  unfold queuedOf
  rw [List.map_eq_nil_iff, List.filter_eq_nil_iff]
  intro other member same
  rw [decide_eq_true_eq] at same
  exact absent (same ▸ sound.waits other member)

theorem Sound.admitNew (sound : Sound held (queued :: rest) batch)
    (absent : batch.pending.get? (pendingKey queued.request) = none) :
    Sound held rest { batch with
      pending := batch.pending.set (pendingKey queued.request) ⟨queued.request, [queued.waiter]⟩ } := by
  have asked := sound.queued queued (List.mem_append_right _ List.mem_cons_self)
  have notKey := JsMap.get?_eq_none_iff.mp absent
  have row : Row batch.enqueued ⟨queued.request, [queued.waiter]⟩ := by
    refine ⟨by simp, List.pairwise_singleton _ _, fun waiter member => ?_⟩
    rw [List.mem_singleton.mp member]
    exact ⟨queued.request, asked, rfl, rfl, Int.le_refl _⟩
  rcases JsMap.values_set batch.pending (pendingKey queued.request)
    (⟨queued.request, [queued.waiter]⟩ : PendingRenewal) with ⟨_, after⟩ | ⟨_, _, _, found, _⟩
  · constructor
    · refine List.Perm.trans (List.perm_iff_count.mpr fun waiter => ?_) sound.tickets
      simp only [waiting, sentWaiters, after, List.map_cons, List.flatMap_append, List.flatMap_cons,
        List.flatMap_nil, List.count_append, List.count_cons, List.count_nil]
      omega
    · intro key entry stored
      rw [JsMap.get?_set] at stored
      split at stored
      · next same =>
        cases stored
        exact same.symm
      · exact sound.keyed key entry stored
    · intro entry member
      rw [after] at member
      rcases List.mem_append.mp member with old | new
      · exact sound.rows entry old
      · rw [List.mem_singleton.mp new]
        exact row
    · exact sound.holding
    · intro other member
      exact sound.queued other ((sublist_without batch.deferred queued rest).subset member)
    · intro other member
      exact JsMap.mem_keys_set.mpr (Or.inr (sound.waits other member))
    · exact sound.calls
    · exact sound.sorted.sublist ((sublist_without batch.deferred queued rest).map _)
    · intro other member waiter inside
      rw [after, List.flatMap_append, List.flatMap_singleton, List.mem_append] at inside
      rcases inside with old | new
      · exact sound.later other (List.mem_cons_of_mem _ member) waiter old
      · rw [List.mem_singleton.mp new]
        have sorted := sound.sorted
        rw [List.map_append, List.map_cons] at sorted
        have tail := (List.pairwise_append.mp sorted).2.1
        exact (List.pairwise_cons.mp tail).1 _ (List.mem_map_of_mem member)
    · intro key
      have ordered := sound.ordered key
      dsimp only [sentRows]
      rw [after, firsts_append]
      by_cases same : pendingKey queued.request = key
      · subst same
        have own : firsts (pendingKey queued.request) [⟨queued.request, [queued.waiter]⟩] =
            [queued.waiter] := by
          unfold firsts
          simp
        have ownQueue : queuedOf (pendingKey queued.request) (queued :: rest) =
            queued.waiter :: queuedOf (pendingKey queued.request) rest := by
          unfold queuedOf
          simp
        rw [queuedOf_append, queuedOf_of_absent sound notKey, ownQueue] at ordered
        rw [queuedOf_append, queuedOf_of_absent sound notKey, own]
        simpa [sentRows] using ordered
      · have other : firsts key [⟨queued.request, [queued.waiter]⟩] = [] := by
          unfold firsts
          simp [same]
        rw [other, List.append_nil]
        refine ordered.sublist (List.Sublist.append_left ?_ _)
        exact ((sublist_without batch.deferred queued rest).filter _).map _
  · rw [absent] at found
    cases found

end Admit

end ControlRenewalBatch

end OxeeUI.Relay
