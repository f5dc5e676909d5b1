import OxeeUI.Relay.ControlRenewalRows
import Mathlib.Data.List.Perm.Subperm

/-!
# Runs of the renewal batch

A flush sends its rows and admits the deferred renewals again.  Whatever order
flushes and answers come in, no renewal is lost and none is settled twice.
-/

namespace OxeeUI.Relay

open OxeeUI.Library

namespace ControlRenewalBatch

section Flush

variable {held : List PendingRenewal} {rest : List QueuedRenewal} {batch : ControlRenewalBatch}

structure SameHistory (before after : ControlRenewalBatch) : Prop where
  enqueued : after.enqueued = before.enqueued
  calls : after.calls = before.calls
  settled : after.settled = before.settled

theorem SameHistory.refl (batch : ControlRenewalBatch) : SameHistory batch batch := ⟨rfl, rfl, rfl⟩

theorem SameHistory.trans {first second third : ControlRenewalBatch}
    (one : SameHistory first second) (two : SameHistory second third) : SameHistory first third :=
  ⟨two.enqueued.trans one.enqueued, two.calls.trans one.calls, two.settled.trans one.settled⟩

/-- While a renewal waits in the map, a flush is scheduled. -/
def Timed (batch : ControlRenewalBatch) : Prop := batch.pending.values ≠ [] → batch.timer = true

theorem Sound.schedule (sound : Sound held rest batch) : Sound held rest (scheduleFlush batch) :=
  ⟨sound.tickets, sound.keyed, sound.rows, sound.holding, sound.queued, sound.waits, sound.calls,
    sound.sorted, sound.later, sound.ordered⟩

theorem size_le_of_keys {keys : List Text} {pending : JsMap Text PendingRenewal}
    (within : ∀ key ∈ pending.keys, key ∈ keys) : pending.size ≤ keys.length := by
  have covered : pending.keys.Subperm keys := List.subperm_of_subset pending.keys_nodup within
  have length := covered.length_le
  unfold JsMap.keys at length
  rw [List.length_map] at length
  exact length

theorem admitWith_cases (flush : ControlRenewalBatch → ControlRenewalBatch)
    (batch : ControlRenewalBatch) (queued : QueuedRenewal) :
    (∃ existing, batch.pending.get? (pendingKey queued.request) = some existing ∧
        existing.request.activityId ≠ queued.request.activityId ∧
        admitWith flush batch queued =
          scheduleFlush { batch with deferred := batch.deferred ++ [queued] }) ∨
      (∃ existing, batch.pending.get? (pendingKey queued.request) = some existing ∧
        existing.request.activityId = queued.request.activityId ∧
        admitWith flush batch queued = { batch with
          pending := batch.pending.set (pendingKey queued.request) (merge existing queued) }) ∨
      (batch.pending.get? (pendingKey queued.request) = none ∧
        ∃ admitted, admitted = { batch with
            pending := batch.pending.set (pendingKey queued.request)
              ⟨queued.request, [queued.waiter]⟩ } ∧
          admitWith flush batch queued =
            if admitted.pending.size ≥ controlRenewalBatchMaxRows then flush admitted
            else scheduleFlush admitted) := by
  unfold admitWith
  dsimp only
  cases found : batch.pending.get? (pendingKey queued.request) with
  | none => exact Or.inr (Or.inr ⟨rfl, _, rfl, rfl⟩)
  | some existing =>
    by_cases same : existing.request.activityId = queued.request.activityId
    · refine Or.inr (Or.inl ⟨existing, rfl, same, ?_⟩)
      dsimp only
      rw [if_neg (not_not_intro same)]
    · refine Or.inl ⟨existing, rfl, same, ?_⟩
      dsimp only
      rw [if_pos same]

theorem Sound.readmit {queued : QueuedRenewal} (sound : Sound held (queued :: rest) batch)
    {keys : List Text} (few : keys.length < controlRenewalBatchMaxRows)
    (within : ∀ key ∈ batch.pending.keys, key ∈ keys) (inside : pendingKey queued.request ∈ keys)
    (timed : Timed batch) (flush : ControlRenewalBatch → ControlRenewalBatch) :
    Sound held rest (admitWith flush batch queued) ∧ Timed (admitWith flush batch queued) ∧
      (∀ key ∈ (admitWith flush batch queued).pending.keys, key ∈ keys) ∧
      SameHistory batch (admitWith flush batch queued) := by
  rcases admitWith_cases flush batch queued with ⟨existing, found, _, shape⟩ |
    ⟨existing, found, same, shape⟩ | ⟨none, admitted, rfl, shape⟩
  · rw [shape]
    exact ⟨sound.defer (JsMap.mem_keys_of_get? found), fun _ => rfl, within, ⟨rfl, rfl, rfl⟩⟩
  · rw [shape]
    refine ⟨sound.merge found same, fun _ => timed ?_, fun key member => ?_, ⟨rfl, rfl, rfl⟩⟩
    · exact List.ne_nil_of_mem (mem_values_of_get? found)
    · rcases JsMap.mem_keys_set.mp member with rfl | old
      · exact inside
      · exact within key old
  · have withinAfter : ∀ key ∈ (batch.pending.set (pendingKey queued.request)
        (⟨queued.request, [queued.waiter]⟩ : PendingRenewal)).keys, key ∈ keys := by
      intro key member
      rcases JsMap.mem_keys_set.mp member with rfl | old
      · exact inside
      · exact within key old
    have small := size_le_of_keys withinAfter
    rw [if_neg (Nat.not_le.mpr (lt_of_le_of_lt small few))] at shape
    rw [shape]
    exact ⟨(sound.admitNew none).schedule, fun _ => rfl, withinAfter, ⟨rfl, rfl, rfl⟩⟩

theorem Sound.readmitAll (sound : Sound held rest batch) {keys : List Text}
    (few : keys.length < controlRenewalBatchMaxRows)
    (within : ∀ key ∈ batch.pending.keys, key ∈ keys)
    (inside : ∀ queued ∈ rest, pendingKey queued.request ∈ keys) (timed : Timed batch)
    (flush : ControlRenewalBatch → ControlRenewalBatch) :
    Sound held [] (rest.foldl (admitWith flush) batch) ∧
      Timed (rest.foldl (admitWith flush) batch) ∧
      (∀ key ∈ (rest.foldl (admitWith flush) batch).pending.keys, key ∈ keys) ∧
      SameHistory batch (rest.foldl (admitWith flush) batch) := by
  induction rest generalizing batch with
  | nil => exact ⟨sound, timed, within, SameHistory.refl batch⟩
  | cons queued rest ih =>
    obtain ⟨admitted, timedAfter, withinAfter, history⟩ :=
      sound.readmit few within (inside queued List.mem_cons_self) timed flush
    obtain ⟨all, timedAll, withinAll, historyAll⟩ := ih admitted withinAfter
      (fun other member => inside other (List.mem_cons_of_mem _ member)) timedAfter
    exact ⟨all, timedAll, withinAll, history.trans historyAll⟩

/-- What a flush leaves: its rows sent in one call, and the deferred renewals admitted. -/
structure Flushed (before after : ControlRenewalBatch) : Prop where
  sound : Sound [] [] after
  timed : Timed after
  small : after.pending.size < controlRenewalBatchMaxRows
  enqueued : after.enqueued = before.enqueued
  settled : after.settled = before.settled
  calls : after.calls = before.calls ++
    if before.pending.values = [] then [] else [⟨before.pending.values, none⟩]

theorem Sound.startFlush (sound : Sound [] [] batch)
    (size : batch.pending.size ≤ controlRenewalBatchMaxRows) :
    Sound batch.pending.values batch.deferred
      { batch with timer := false, pending := JsMap.empty, deferred := [] } where
  tickets := by
    refine List.Perm.trans (List.perm_iff_count.mpr fun waiter => ?_) sound.tickets
    simp only [waiting, sentWaiters, JsMap.values_empty, List.flatMap_nil, List.map_nil,
      List.count_append, List.count_nil]
    omega
  keyed _ _ found := by
    rw [JsMap.get?_empty] at found
    cases found
  rows _ member := (List.not_mem_nil member).elim
  holding := by
    refine ⟨?_, ?_, sound.rows⟩
    · have keys : batch.pending.values.map (fun entry => pendingKey entry.request) =
          batch.pending.keys := by
        unfold JsMap.values JsMap.keys
        rw [List.map_map]
        refine List.map_congr_left fun entry member => ?_
        exact sound.keyed entry.1 entry.2 (JsMap.get?_eq_some_iff.mpr member)
      rw [keys]
      exact batch.pending.keys_nodup
    · unfold JsMap.values
      rw [List.length_map]
      exact size
  queued queued member := by
    refine sound.queued queued ?_
    simpa using member
  waits _ member := (List.not_mem_nil member).elim
  calls := sound.calls
  sorted := by
    have sorted := sound.sorted
    rw [List.append_nil] at sorted
    exact sorted
  later _ _ _ member := (List.not_mem_nil member).elim
  ordered key := by
    have ordered := sound.ordered key
    simpa [firsts, sentRows] using ordered

theorem Sound.endFlush (sound : Sound held [] batch) :
    Sound [] [] { batch with calls := batch.calls ++ [⟨held, none⟩] } where
  tickets := by
    refine List.Perm.trans (List.perm_iff_count.mpr fun waiter => ?_) sound.tickets
    simp only [waiting, sentWaiters, RenewCall.waiters, List.flatMap_append, List.flatMap_cons,
      List.flatMap_nil, List.map_nil, List.count_append, List.count_nil]
    omega
  keyed := sound.keyed
  rows := sound.rows
  holding := ⟨List.nodup_nil, Nat.zero_le _, fun _ member => (List.not_mem_nil member).elim⟩
  queued := sound.queued
  waits := sound.waits
  calls call member := by
    rcases List.mem_append.mp member with old | new
    · exact sound.calls call old
    · rw [List.mem_singleton.mp new]
      exact sound.holding
  sorted := sound.sorted
  later _ member := (List.not_mem_nil member).elim
  ordered key := by
    have ordered := sound.ordered key
    have rows : firsts key (sentRows { batch with calls := batch.calls ++ [⟨held, none⟩] }) =
        firsts key batch.sentRows ++ firsts key held := by
      rw [← firsts_append]
      simp [sentRows]
    have nothing : firsts key ([] : List PendingRenewal) = [] := rfl
    rw [rows, nothing, List.append_nil]
    exact ordered

theorem Sound.flushed (sound : Sound [] [] batch)
    (size : batch.pending.size ≤ controlRenewalBatchMaxRows) {keys : List Text}
    (few : keys.length < controlRenewalBatchMaxRows)
    (inside : ∀ queued ∈ batch.deferred, pendingKey queued.request ∈ keys) :
    Flushed batch batch.flush := by
  have started := sound.startFlush size
  obtain ⟨readmitted, timed, within, history⟩ := started.readmitAll few
    (fun _ member => (List.not_mem_nil member).elim) inside (fun nonempty => absurd rfl nonempty)
    (flushTo batch.deferred.length)
  have small := size_le_of_keys within
  have flushedIs : batch.flush = flushWith (admitWith (flushTo batch.deferred.length)) batch := rfl
  rw [flushedIs]
  unfold flushWith
  dsimp only
  by_cases none : batch.pending.values = []
  · rw [if_pos none]
    rw [none] at readmitted
    exact ⟨readmitted, timed, lt_of_le_of_lt small few, history.enqueued, history.settled, by
      rw [if_pos none, List.append_nil]
      exact history.calls⟩
  · rw [if_neg none]
    exact ⟨readmitted.endFlush, timed, lt_of_le_of_lt small few, history.enqueued, history.settled, by
      rw [if_neg none, history.calls]⟩

end Flush

section Steps

variable {batch : ControlRenewalBatch}

structure SettledBy (batch : ControlRenewalBatch) (settlement : RenewalSettlement)
    (answer : Option (List ControlRenewalOutcome)) (entry : PendingRenewal) : Prop where
  call : ∃ rows, batch.calls[settlement.call]? = some ⟨rows, some answer⟩ ∧
    rows[settlement.row]? = some entry
  waiter : settlement.waiter ∈ entry.waiters
  outcome : settlement.outcome =
    answer.map fun outcomes => outcomes[settlement.row]?.getD .databaseError

/-- The waiters of the calls that have ended, each settled. -/
structure Settling (batch : ControlRenewalBatch) : Prop where
  waiters : (batch.settled.map RenewalSettlement.waiter).Perm
    ((batch.calls.filter fun call => call.answer.isSome).flatMap RenewCall.waiters)
  rows : ∀ settlement ∈ batch.settled, ∃ answer entry, SettledBy batch settlement answer entry

structure Ready (batch : ControlRenewalBatch) : Prop where
  sound : Sound [] [] batch
  timed : Timed batch
  small : batch.pending.size < controlRenewalBatchMaxRows
  settling : Settling batch

theorem SettledBy.append {settlement : RenewalSettlement}
    {answer : Option (List ControlRenewalOutcome)} {entry : PendingRenewal}
    {before after : ControlRenewalBatch} (settledBy : SettledBy before settlement answer entry)
    {more : List RenewCall} (calls : after.calls = before.calls ++ more) :
    SettledBy after settlement answer entry := by
  obtain ⟨rows, found, row⟩ := settledBy.call
  refine ⟨⟨rows, ?_, row⟩, settledBy.waiter, settledBy.outcome⟩
  rw [calls]
  exact (List.getElem?_append_left (List.getElem?_eq_some_iff.mp found).1).trans found

theorem Settling.append {before after : ControlRenewalBatch} (settling : Settling before)
    {more : List RenewCall} (calls : after.calls = before.calls ++ more)
    (open' : ∀ call ∈ more, call.answer = none) (settled : after.settled = before.settled) :
    Settling after where
  waiters := by
    have none : more.filter (fun call => call.answer.isSome) = [] := by
      apply List.filter_eq_nil_iff.mpr
      intro call member
      rw [open' call member]
      exact Bool.false_ne_true
    rw [settled, calls, List.filter_append, none, List.append_nil]
    exact settling.waiters
  rows settlement member := by
    rw [settled] at member
    obtain ⟨answer, entry, settledBy⟩ := settling.rows settlement member
    exact ⟨answer, entry, settledBy.append calls⟩

theorem Flushed.ready {before after : ControlRenewalBatch} (flushed : Flushed before after)
    (settling : Settling before) : Ready after := by
  refine ⟨flushed.sound, flushed.timed, flushed.small,
    settling.append flushed.calls (fun call member => ?_) flushed.settled⟩
  split at member
  · cases member
  · rw [List.mem_singleton.mp member]

theorem Ready.flushed (ready : Ready batch) : Flushed batch batch.flush := by
  have few : batch.pending.keys.length < controlRenewalBatchMaxRows := by
    unfold JsMap.keys
    rw [List.length_map]
    exact ready.small
  exact ready.sound.flushed (Nat.le_of_lt ready.small) few ready.sound.waits

theorem mem_of_mem_firsts {key : Text} {rows : List PendingRenewal} {waiter : ℕ}
    (member : waiter ∈ firsts key rows) : waiter ∈ rows.flatMap PendingRenewal.waiters := by
  unfold firsts at member
  obtain ⟨entry, inside, head⟩ := List.mem_filterMap.mp member
  exact List.mem_flatMap.mpr ⟨entry, List.mem_of_mem_filter inside, List.mem_of_mem_head? head⟩

theorem mem_of_mem_queuedOf {key : Text} {queue : List QueuedRenewal} {waiter : ℕ}
    (member : waiter ∈ queuedOf key queue) : waiter ∈ queue.map QueuedRenewal.waiter := by
  unfold queuedOf at member
  exact ((List.filter_sublist).map _).subset member

theorem sentWaiters_eq (batch : ControlRenewalBatch) :
    batch.sentRows.flatMap PendingRenewal.waiters = batch.sentWaiters := by
  unfold sentRows sentWaiters
  rw [List.flatMap_assoc]
  rfl

theorem Sound.asked_of_mem (sound : Sound [] [] batch) {waiter : ℕ}
    (member : waiter ∈ batch.waiting ++ batch.sentWaiters) : waiter < batch.enqueued.length := by
  apply List.mem_range.mp
  apply sound.tickets.subset
  simpa using member

theorem Sound.ask (sound : Sound [] [] batch) (request : ControlRenewalRequest) :
    Sound [] [⟨request, batch.enqueued.length⟩]
      { batch with enqueued := batch.enqueued ++ [request] } where
  tickets := by
    dsimp only [waiting, sentWaiters]
    rw [List.length_append, List.length_singleton, List.range_succ]
    refine List.Perm.trans (List.perm_iff_count.mpr fun waiter => ?_)
      (sound.tickets.append_right [batch.enqueued.length])
    simp only [waiting, sentWaiters, List.map_cons, List.map_nil, List.flatMap_nil, List.count_append,
      List.count_nil]
    omega
  keyed := sound.keyed
  rows entry member := (sound.rows entry member).mono [request]
  holding := ⟨List.nodup_nil, Nat.zero_le _, fun _ member => (List.not_mem_nil member).elim⟩
  queued queued member := by
    rcases List.mem_append.mp member with old | new
    · have asked := sound.queued queued (List.mem_append_left _ old)
      exact (List.getElem?_append_left (List.getElem?_eq_some_iff.mp asked).1).trans asked
    · rw [List.mem_singleton.mp new]
      exact List.getElem?_concat_length
  waits := sound.waits
  calls call member := by
    obtain ⟨hosts, length, rows⟩ := sound.calls call member
    exact ⟨hosts, length, fun entry inside => (rows entry inside).mono [request]⟩
  sorted := by
    have sorted := sound.sorted
    rw [List.append_nil] at sorted
    rw [List.map_append]
    refine List.pairwise_append.mpr ⟨sorted, List.pairwise_singleton _ _, ?_⟩
    intro waiter member other new
    rw [List.mem_singleton.mp new]
    exact sound.asked_of_mem (List.mem_append_left _ (List.mem_append_right _ member))
  later queued member waiter inside := by
    rw [List.mem_singleton.mp member]
    exact sound.asked_of_mem (List.mem_append_left _ (List.mem_append_left _ inside))
  ordered key := by
    have ordered := sound.ordered key
    rw [List.append_nil] at ordered
    rw [queuedOf_append, ← List.append_assoc]
    refine List.pairwise_append.mpr ⟨ordered, ?_, ?_⟩
    · exact List.Pairwise.sublist ((List.filter_sublist).map _) (List.pairwise_singleton _ _)
    · intro waiter member other new
      rw [List.mem_singleton.mp (mem_of_mem_queuedOf new)]
      apply sound.asked_of_mem
      rcases List.mem_append.mp member with inRows | inQueue
      · rcases List.mem_append.mp inRows with inSent | inPending
        · have nothing : firsts key ([] : List PendingRenewal) = [] := rfl
          rw [nothing, List.append_nil] at inSent
          apply List.mem_append_right
          rw [← sentWaiters_eq]
          exact mem_of_mem_firsts inSent
        · exact List.mem_append_left _ (List.mem_append_left _ (mem_of_mem_firsts inPending))
      · exact List.mem_append_left _ (List.mem_append_right _ (mem_of_mem_queuedOf inQueue))

theorem Ready.enqueue (ready : Ready batch) (request : ControlRenewalRequest) :
    Ready (batch.enqueue request) := by
  have asked := ready.sound.ask request
  obtain ⟨asking, asking_eq⟩ : ∃ asking : ControlRenewalBatch, asking =
    { batch with enqueued := batch.enqueued ++ [request] } := ⟨_, rfl⟩
  have calls : asking.calls = batch.calls ++ [] := by
    rw [asking_eq, List.append_nil]
  have settling : Settling asking := by
    refine ready.settling.append calls (fun _ member => (List.not_mem_nil member).elim) ?_
    rw [asking_eq]
  have timed : Timed asking := by
    rw [asking_eq]
    exact ready.timed
  have pending : asking.pending = batch.pending := by
    rw [asking_eq]
  rw [← asking_eq] at asked
  have shape : batch.enqueue request =
      admitWith flush asking ⟨request, batch.enqueued.length⟩ := by
    rw [asking_eq]
    rfl
  rw [shape]
  have unsent : ∀ after : ControlRenewalBatch, after.calls = asking.calls →
      after.settled = asking.settled → Settling after := by
    intro after same settled
    refine settling.append (same.trans (List.append_nil _).symm) ?_ settled
    exact fun _ member => (List.not_mem_nil member).elim
  rcases admitWith_cases flush asking ⟨request, batch.enqueued.length⟩ with
    ⟨existing, found, _, after⟩ | ⟨existing, found, same, after⟩ | ⟨none, admitted, admitted_eq, after⟩
  · rw [after]
    refine ⟨asked.defer (JsMap.mem_keys_of_get? found), fun _ => rfl, ?_, unsent _ rfl rfl⟩
    dsimp only [scheduleFlush]
    rw [pending]
    exact ready.small
  · rw [after]
    refine ⟨asked.merge found same, fun _ => timed ?_, ?_, unsent _ rfl rfl⟩
    · exact List.ne_nil_of_mem (mem_values_of_get? found)
    · have keys := JsMap.keys_set asking.pending (pendingKey request)
        (merge existing ⟨request, batch.enqueued.length⟩)
      rw [if_pos (JsMap.mem_keys_of_get? found), pending] at keys
      have lengths := congrArg List.length keys
      unfold JsMap.keys at lengths
      rw [List.length_map, List.length_map] at lengths
      dsimp only
      rw [pending]
      exact lt_of_eq_of_lt lengths ready.small
  · have sound := asked.admitNew none
    rw [← admitted_eq] at sound
    have keys := JsMap.keys_set asking.pending (pendingKey request)
      (⟨request, [batch.enqueued.length]⟩ : PendingRenewal)
    rw [if_neg (JsMap.get?_eq_none_iff.mp none)] at keys
    have size : admitted.pending.size = batch.pending.size + 1 := by
      have lengths := congrArg List.length keys
      rw [List.length_append, pending] at lengths
      unfold JsMap.keys at lengths
      rw [List.length_map, List.length_map] at lengths
      rw [admitted_eq]
      dsimp only
      rw [pending]
      exact lengths
    have settlingAdmitted : Settling admitted := by
      rw [admitted_eq]
      exact unsent _ rfl rfl
    rw [after]
    split
    · next full =>
      have few : batch.pending.keys.length < controlRenewalBatchMaxRows := by
        unfold JsMap.keys
        rw [List.length_map]
        exact ready.small
      have inside : ∀ queued ∈ admitted.deferred, pendingKey queued.request ∈ batch.pending.keys := by
        intro queued member
        apply ready.sound.waits queued
        rw [admitted_eq, asking_eq] at member
        exact member
      have small : admitted.pending.size ≤ controlRenewalBatchMaxRows := by
        rw [size]
        exact ready.small
      exact (sound.flushed small few inside).ready settlingAdmitted
    · next notFull =>
      exact ⟨sound.schedule, fun _ => rfl, Nat.lt_of_not_le notFull,
        settlingAdmitted.append (List.append_nil _).symm
          (fun _ member => (List.not_mem_nil member).elim) rfl⟩

theorem waiters_settlements (call : ℕ) (answer : Option (List ControlRenewalOutcome)) (row : ℕ)
    (rows : List PendingRenewal) :
    (settlements call answer row rows).map RenewalSettlement.waiter =
      rows.flatMap PendingRenewal.waiters := by
  induction rows generalizing row with
  | nil => rfl
  | cons entry rest ih =>
    unfold settlements
    rw [List.map_append, ih, List.map_map, List.flatMap_cons]
    congr 1
    exact List.map_id _

theorem mem_settlements {call : ℕ} {answer : Option (List ControlRenewalOutcome)} {row : ℕ}
    {rows : List PendingRenewal} {settlement : RenewalSettlement}
    (member : settlement ∈ settlements call answer row rows) :
    ∃ index entry, rows[index]? = some entry ∧ settlement.call = call ∧
      settlement.row = row + index ∧ settlement.waiter ∈ entry.waiters ∧
      settlement.outcome = answer.map fun outcomes => outcomes[settlement.row]?.getD .databaseError := by
  induction rows generalizing row with
  | nil => cases member
  | cons entry rest ih =>
    unfold settlements at member
    rcases List.mem_append.mp member with here | there
    · obtain ⟨waiter, inside, rfl⟩ := List.mem_map.mp here
      exact ⟨0, entry, rfl, rfl, rfl, inside, rfl⟩
    · obtain ⟨index, other, found, callIs, rowIs, waiter, outcome⟩ := ih there
      exact ⟨index + 1, other, found, callIs, by omega, waiter, outcome⟩

theorem Sound.answered (sound : Sound [] [] batch) {front back : List RenewCall}
    {rows : List PendingRenewal} {answer : Option (List ControlRenewalOutcome)}
    (calls : batch.calls = front ++ ⟨rows, none⟩ :: back) (settled : List RenewalSettlement) :
    Sound [] [] { batch with calls := front ++ ⟨rows, some answer⟩ :: back, settled := settled } where
  tickets := by
    have tickets := sound.tickets
    dsimp only [waiting, sentWaiters] at tickets ⊢
    rw [calls, List.flatMap_append, List.flatMap_cons] at tickets
    rw [List.flatMap_append, List.flatMap_cons]
    exact tickets
  keyed := sound.keyed
  rows := sound.rows
  holding := sound.holding
  queued := sound.queued
  waits := sound.waits
  calls call member := by
    rcases List.mem_append.mp member with before | after
    · exact sound.calls call (calls ▸ List.mem_append_left _ before)
    · rcases List.mem_cons.mp after with rfl | after
      · exact sound.calls ⟨rows, none⟩ (calls ▸ List.mem_append_right _ List.mem_cons_self)
      · exact sound.calls call (calls ▸ List.mem_append_right _ (List.mem_cons_of_mem _ after))
  sorted := sound.sorted
  later := sound.later
  ordered key := by
    have ordered := sound.ordered key
    dsimp only [sentRows] at ordered ⊢
    rw [calls, List.flatMap_append, List.flatMap_cons] at ordered
    rw [List.flatMap_append, List.flatMap_cons]
    exact ordered

theorem Settling.answered (settling : Settling batch) {front back : List RenewCall}
    {rows : List PendingRenewal} (answer : Option (List ControlRenewalOutcome))
    (calls : batch.calls = front ++ ⟨rows, none⟩ :: back) :
    Settling { batch with
      calls := front ++ ⟨rows, some answer⟩ :: back
      settled := batch.settled ++ settlements front.length answer 0 rows } where
  waiters := by
    have waiters := settling.waiters
    rw [calls, List.filter_append, List.filter_cons_of_neg Bool.false_ne_true] at waiters
    dsimp only
    have ended : (RenewCall.mk rows (some answer) :: back).filter (fun call => call.answer.isSome) =
        ⟨rows, some answer⟩ :: back.filter fun call => call.answer.isSome := List.filter_cons_of_pos rfl
    rw [List.filter_append, ended, List.map_append, waiters_settlements]
    refine List.Perm.trans (waiters.append_right _) (List.perm_iff_count.mpr fun waiter => ?_)
    have own : (RenewCall.mk rows (some answer)).waiters = rows.flatMap PendingRenewal.waiters := rfl
    simp only [List.flatMap_append, List.flatMap_cons, own, List.count_append]
    omega
  rows settlement member := by
    rcases List.mem_append.mp member with old | new
    · obtain ⟨oldAnswer, entry, settledBy⟩ := settling.rows settlement old
      obtain ⟨oldRows, found, row⟩ := settledBy.call
      refine ⟨oldAnswer, entry, ⟨oldRows, ?_, row⟩, settledBy.waiter, settledBy.outcome⟩
      rw [calls] at found
      dsimp only
      rcases Nat.lt_trichotomy settlement.call front.length with before | same | after
      · rw [List.getElem?_append_left before] at found ⊢
        exact found
      · rw [same, List.getElem?_append_right (Nat.le_refl _), Nat.sub_self] at found
        cases found
      · obtain ⟨index, index_eq⟩ := Nat.exists_eq_add_of_lt after
        rw [List.getElem?_append_right (Nat.le_of_lt after), index_eq,
          show front.length + index + 1 - front.length = index + 1 by omega] at found ⊢
        exact found
    · obtain ⟨index, entry, found, callIs, rowIs, waiter, outcome⟩ := mem_settlements new
      refine ⟨answer, entry, ⟨rows, ?_, ?_⟩, waiter, outcome⟩
      · rw [callIs]
        dsimp only
        rw [List.getElem?_append_right (Nat.le_refl _), Nat.sub_self]
        rfl
      · rw [rowIs, Nat.zero_add]
        exact found

theorem finish_cases (batch : ControlRenewalBatch) (call : ℕ)
    (answer : Option (List ControlRenewalOutcome)) :
    batch.finish call answer = batch ∨ ∃ front rows back,
      batch.calls = front ++ ⟨rows, none⟩ :: back ∧ batch.finish call answer = { batch with
        calls := front ++ ⟨rows, some answer⟩ :: back
        settled := batch.settled ++ settlements front.length answer 0 rows } := by
  unfold finish
  split
  · next rows found =>
    obtain ⟨within, is⟩ := List.getElem?_eq_some_iff.mp found
    obtain ⟨front, back, split, length, after⟩ :=
      @List.exists_of_set _ call (⟨rows, some answer⟩ : RenewCall) batch.calls within
    rw [is] at split
    refine Or.inr ⟨front, rows, back, split, ?_⟩
    rw [after, length]
  · exact Or.inl rfl

theorem Ready.finish (ready : Ready batch) (call : ℕ)
    (answer : Option (List ControlRenewalOutcome)) : Ready (batch.finish call answer) := by
  rcases finish_cases batch call answer with same | ⟨front, rows, back, calls, after⟩
  · rw [same]
    exact ready
  · rw [after]
    exact ⟨ready.sound.answered calls _, ready.timed, ready.small, ready.settling.answered answer calls⟩

theorem Ready.step (ready : Ready batch) (input : RenewalInput) : Ready (step batch input) := by
  cases input with
  | enqueue request => exact ready.enqueue request
  | timerFired =>
    by_cases scheduled : batch.timer = true
    · have shape : ControlRenewalBatch.step batch .timerFired =
          flush { batch with timer := false } := if_pos scheduled
      have same : flush { batch with timer := false } = flush batch := rfl
      rw [shape, same]
      exact ready.flushed.ready ready.settling
    · have shape : ControlRenewalBatch.step batch .timerFired = batch := if_neg scheduled
      rw [shape]
      exact ready
  | flush => exact ready.flushed.ready ready.settling
  | finished call answer => exact ready.finish call answer

theorem Ready.initial : Ready initial where
  sound :=
    { tickets := List.Perm.refl _
      keyed := fun _ _ found => (Option.some_ne_none _ found.symm).elim
      rows := fun _ member => (List.not_mem_nil member).elim
      holding := ⟨List.nodup_nil, Nat.zero_le _, fun _ member => (List.not_mem_nil member).elim⟩
      queued := fun _ member => (List.not_mem_nil member).elim
      waits := fun _ member => (List.not_mem_nil member).elim
      calls := fun _ member => (List.not_mem_nil member).elim
      sorted := List.Pairwise.nil
      later := fun _ member => (List.not_mem_nil member).elim
      ordered := fun _ => List.Pairwise.nil }
  timed := fun nonempty => absurd rfl nonempty
  small := by decide
  settling := ⟨List.Perm.refl _, fun _ member => (List.not_mem_nil member).elim⟩

theorem Ready.foldl (ready : Ready batch) (inputs : List RenewalInput) :
    Ready (inputs.foldl ControlRenewalBatch.step batch) := by
  induction inputs generalizing batch with
  | nil => exact ready
  | cons input inputs ih =>
    apply ih
    exact ready.step input

theorem Ready.run (inputs : List RenewalInput) : Ready (run inputs) := Ready.initial.foldl inputs

end Steps

end ControlRenewalBatch

end OxeeUI.Relay
