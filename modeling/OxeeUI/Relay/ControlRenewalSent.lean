import OxeeUI.Relay.ControlRenewalRuns

/-!
# Every renewal is sent and settled once

Each flush sends at least one waiting renewal, so that the scheduled flushes
send them all, and each call settles the renewals of its rows.
-/

namespace OxeeUI.Relay

open OxeeUI.Library

namespace ControlRenewalBatch

section Progress

variable {batch : ControlRenewalBatch}

def RenewalInput.asks : RenewalInput → Bool
  | .enqueue _ => true
  | _ => false

def RenewalInput.flushes : RenewalInput → Bool
  | .timerFired => true
  | .flush => true
  | _ => false

theorem Sound.waiting_length (sound : Sound [] [] batch) :
    batch.waiting.length + batch.sentWaiters.length = batch.enqueued.length := by
  have length := sound.tickets.length_eq
  simpa using length

theorem Sound.pending_of_waiting (sound : Sound [] [] batch) (waiting : batch.waiting ≠ []) :
    batch.pending.values ≠ [] := by
  intro none
  apply waiting
  have nobody : batch.deferred = [] := by
    apply List.eq_nil_iff_forall_not_mem.mpr
    intro queued member
    obtain ⟨entry, found⟩ := JsMap.exists_get?_of_mem_keys (sound.waits queued member)
    exact List.ne_nil_of_mem (mem_values_of_get? found) none
  unfold ControlRenewalBatch.waiting
  rw [none, nobody]
  rfl

theorem Sound.timer_of_waiting (sound : Sound [] [] batch) (timed : Timed batch)
    (waiting : batch.waiting ≠ []) : batch.timer = true := timed (sound.pending_of_waiting waiting)

theorem sentWaiters_flush (ready : Ready batch) :
    batch.flush.sentWaiters = batch.sentWaiters ++
      batch.pending.values.flatMap PendingRenewal.waiters := by
  unfold sentWaiters
  rw [ready.flushed.calls, List.flatMap_append]
  congr 1
  split
  · next none =>
    rw [none]
    rfl
  · exact List.flatMap_singleton _ _

theorem Ready.waiting_flush (ready : Ready batch) :
    batch.flush.waiting.length ≤ batch.waiting.length - 1 := by
  have before := ready.sound.waiting_length
  have after := ready.flushed.sound.waiting_length
  rw [ready.flushed.enqueued, sentWaiters_flush ready, List.length_append] at after
  by_cases waiting : batch.waiting = []
  · rw [waiting] at before ⊢
    simp only [List.length_nil] at before ⊢
    omega
  · obtain ⟨entry, rest, pending⟩ := List.exists_cons_of_ne_nil (ready.sound.pending_of_waiting waiting)
    have row := ready.sound.rows entry (pending ▸ List.mem_cons_self)
    have sends := List.length_pos_iff.mpr row.nonempty
    rw [pending, List.flatMap_cons, List.length_append] at after
    omega

theorem waiting_finish (batch : ControlRenewalBatch) (call : ℕ)
    (answer : Option (List ControlRenewalOutcome)) :
    (batch.finish call answer).waiting = batch.waiting ∧
      (batch.finish call answer).enqueued = batch.enqueued := by
  rcases finish_cases batch call answer with same | ⟨front, rows, back, _, after⟩
  · rw [same]
    exact ⟨rfl, rfl⟩
  · rw [after]
    exact ⟨rfl, rfl⟩

theorem Ready.waiting_step (ready : Ready batch) {input : RenewalInput} (quiet : input.asks = false) :
    (batch.step input).waiting.length ≤
        batch.waiting.length - (if input.flushes then 1 else 0) ∧
      (batch.step input).enqueued = batch.enqueued := by
  cases input with
  | enqueue request => cases quiet
  | flush => exact ⟨ready.waiting_flush, ready.flushed.enqueued⟩
  | finished call answer =>
    obtain ⟨waiting, enqueued⟩ := waiting_finish batch call answer
    exact ⟨Nat.le_of_eq (congrArg List.length waiting), enqueued⟩
  | timerFired =>
    by_cases scheduled : batch.timer = true
    · have shape : batch.step .timerFired = flush { batch with timer := false } := if_pos scheduled
      have same : flush { batch with timer := false } = flush batch := rfl
      rw [shape, same]
      exact ⟨ready.waiting_flush, ready.flushed.enqueued⟩
    · have shape : batch.step .timerFired = batch := if_neg scheduled
      have nobody : batch.waiting = [] := by
        apply Decidable.not_not.mp
        intro waiting
        exact scheduled (ready.sound.timer_of_waiting ready.timed waiting)
      rw [shape, nobody]
      exact ⟨Nat.zero_le _, rfl⟩

theorem Ready.waiting_foldl (ready : Ready batch) (inputs : List RenewalInput)
    (quiet : inputs.all (fun input => !input.asks) = true) :
    (inputs.foldl ControlRenewalBatch.step batch).waiting.length ≤
        batch.waiting.length - inputs.countP RenewalInput.flushes ∧
      (inputs.foldl ControlRenewalBatch.step batch).enqueued = batch.enqueued := by
  induction inputs generalizing batch with
  | nil => exact ⟨Nat.le_refl _, rfl⟩
  | cons input inputs ih =>
    rw [List.all_cons, Bool.and_eq_true, Bool.not_eq_true'] at quiet
    obtain ⟨fewer, enqueued⟩ := ready.waiting_step quiet.1
    obtain ⟨rest, enqueuedRest⟩ := ih (ready.step input) quiet.2
    refine ⟨?_, enqueuedRest.trans enqueued⟩
    rw [List.countP_cons, List.foldl_cons]
    exact Nat.le_trans rest (by omega)

end Progress

section Sent

def leaders (identity : RenewalIdentity) (rows : List PendingRenewal) : List ℕ :=
  (rows.filter fun entry => entry.request.identity = identity).filterMap fun entry =>
    entry.waiters.head?

theorem firsts_eq_leaders (identity : RenewalIdentity) (rows : List PendingRenewal) :
    firsts (pendingKey ⟨identity, [], [], 0⟩) rows = leaders identity rows := by
  unfold firsts leaders
  congr 1
  apply List.filter_congr
  intro entry _
  rw [decide_eq_decide]
  constructor
  · intro same
    exact identity_of_pendingKey same
  · rintro rfl
    rfl

/-- The call, the row and the renewal that a settlement is about. -/
def Answers (batch : ControlRenewalBatch) (settlement : RenewalSettlement) : Prop :=
  ∃ answer entry request, SettledBy batch settlement answer entry ∧
    batch.enqueued[settlement.waiter]? = some request ∧
    entry.request.identity = request.identity ∧ entry.request.activityId = request.activityId ∧
    request.expiresAt ≤ entry.request.expiresAt

theorem Ready.answers {batch : ControlRenewalBatch} (ready : Ready batch)
    {settlement : RenewalSettlement} (member : settlement ∈ batch.settled) :
    Answers batch settlement := by
  obtain ⟨answer, entry, settledBy⟩ := ready.settling.rows settlement member
  obtain ⟨rows, found, row⟩ := settledBy.call
  obtain ⟨_, _, serving⟩ := ready.sound.calls _ (List.mem_of_getElem? found)
  obtain ⟨request, asked, identity, activity, bound⟩ :=
    (serving entry (List.mem_of_getElem? row)).serves settlement.waiter settledBy.waiter
  exact ⟨answer, entry, request, settledBy, asked, identity.symm, activity.symm, bound⟩

theorem Sound.identities {batch : ControlRenewalBatch} (sound : Sound [] [] batch) {call : RenewCall}
    (member : call ∈ batch.calls) : (call.rows.map fun entry => entry.request.identity).Nodup := by
  apply List.Nodup.of_map (fun identity : RenewalIdentity => pendingKey ⟨identity, [], [], 0⟩)
  rw [List.map_map]
  exact (sound.calls call member).1

theorem Sound.leaders_sorted {batch : ControlRenewalBatch} (sound : Sound [] [] batch)
    (identity : RenewalIdentity) : (leaders identity batch.sentRows).Pairwise (· < ·) := by
  have ordered := sound.ordered (pendingKey ⟨identity, [], [], 0⟩)
  rw [← firsts_eq_leaders]
  refine List.Pairwise.sublist ?_ ordered
  simp

theorem Sound.row_sorted {batch : ControlRenewalBatch} (sound : Sound [] [] batch)
    {entry : PendingRenewal} (member : entry ∈ batch.sentRows) :
    entry.waiters ≠ [] ∧ entry.waiters.Pairwise (· < ·) := by
  obtain ⟨call, sent, inside⟩ := List.mem_flatMap.mp member
  have row := (sound.calls call sent).2.2 entry inside
  exact ⟨row.nonempty, row.sorted⟩

/-- The host of a run with two activities, of which the first renews twice. -/
def twoActivities : List RenewalInput :=
  let identity : RenewalIdentity := ⟨[117], [104], by decide⟩
  [.enqueue ⟨identity, [1], [], 10⟩, .enqueue ⟨identity, [2], [], 10⟩,
    .enqueue ⟨identity, [1], [], 20⟩, .timerFired, .timerFired]

end Sent

end ControlRenewalBatch

end OxeeUI.Relay
