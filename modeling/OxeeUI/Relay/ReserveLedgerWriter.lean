import Mathlib.Algebra.GroupWithZero.Nat
import Mathlib.Algebra.Ring.Int.Defs
import Mathlib.Data.List.Induction
import Mathlib.Data.List.Nodup
import Mathlib.Data.List.Perm.Basic
import OxeeUI.Library.JsMap
import OxeeUI.Library.Run

/-!
# The reserve ledger writer

Entries wait in a bounded queue and are written in batches, one write at a time.  A write
is awaited, so entries are enqueued, and the oldest dropped, while it is in progress.
-/

namespace OxeeUI.Relay

open OxeeUI.Library

structure LedgerEntry where
  userId : String
  relayHostId : String
  cellId : String
  epoch : Int
deriving DecidableEq

/-- An entry and the `enqueue` call that brought it, which the writer never reads. -/
structure QueuedEntry where
  call : Nat
  entry : LedgerEntry
deriving DecidableEq

def reserveLedgerBatch : Nat := 500
def retryBaseMs : Int := 250
def retryMaxMs : Int := 5000
def summaryIntervalMs : Int := 60000

structure LedgerSummary where
  written : Nat
  pending : Nat
  dropped : Nat
  failures : Nat

structure ReserveLedgerWriter where
  queue : List QueuedEntry
  /-- The batch whose write is awaited; there is one while `flushing`. -/
  writing : Option (List QueuedEntry)
  failures : Nat
  retryAt : Int
  dropped : Nat
  written : Nat
  summaryAt : Int

namespace ReserveLedgerWriter

def start (now : Int) : ReserveLedgerWriter := ⟨[], none, 0, 0, 0, 0, now⟩

def pending (writer : ReserveLedgerWriter) : Nat := writer.queue.length

/-- The entries an `enqueue` drops: what exceeds the bound, oldest first. -/
def excess (queueMax : Nat) (queue : List QueuedEntry) : List QueuedEntry :=
  queue.take (queue.length - queueMax)

def enqueue (queueMax : Nat) (writer : ReserveLedgerWriter) (entry : QueuedEntry) :
    ReserveLedgerWriter :=
  let queue := writer.queue ++ [entry]
  if queue.length > queueMax then
    let excess := queue.length - queueMax
    { writer with queue := queue.drop excess, dropped := writer.dropped + excess }
  else { writer with queue := queue }

/-- The line logged, when one is due, and the counts it resets. -/
def logSummary (now : Int) (writer : ReserveLedgerWriter) :
    ReserveLedgerWriter × Option LedgerSummary :=
  if now - writer.summaryAt < summaryIntervalMs then (writer, none)
  else
    ({ writer with summaryAt := now, written := 0, dropped := 0 },
      some ⟨writer.written, writer.pending, writer.dropped, writer.failures⟩)

/-- `flush` up to the write it awaits. -/
def beginFlush (now : Int) (writer : ReserveLedgerWriter) :
    ReserveLedgerWriter × Option LedgerSummary :=
  if writer.writing.isSome ∨ writer.queue = [] ∨ now < writer.retryAt then logSummary now writer
  else ({ writer with writing := some (writer.queue.take reserveLedgerBatch) }, none)

/-- `flush` from the end of its write. -/
def endFlush (now : Int) (ok : Bool) (writer : ReserveLedgerWriter) :
    ReserveLedgerWriter × Option LedgerSummary :=
  match writer.writing with
  | none => (writer, none)
  | some batch =>
    if ok then
      logSummary now
        { writer with
          queue := writer.queue.drop batch.length
          written := writer.written + batch.length
          failures := 0
          retryAt := 0
          writing := none }
    else
      let failures := writer.failures + 1
      logSummary now
        { writer with
          failures := failures
          retryAt := now + min retryMaxMs (retryBaseMs * 2 ^ (failures - 1))
          writing := none }

end ReserveLedgerWriter

/-- What happens to a writer.  A write is awaited between `flush` and `settled`. -/
inductive LedgerEvent
  | enqueue (entry : LedgerEntry)
  | flush (now : Int)
  | settled (ok : Bool) (now : Int)

/-- A writer and the books of its run: what each entry enqueued came to. -/
structure LedgerRun where
  writer : ReserveLedgerWriter
  enqueued : List QueuedEntry
  /-- The entries of the writes that succeeded. -/
  handed : List QueuedEntry
  dropped : List QueuedEntry
  /-- The lines logged, oldest first. -/
  summaries : List LedgerSummary
  /-- Whether an `enqueue` dropped entries since the write in progress began. -/
  overflowed : Bool

namespace LedgerRun

def start (now : Int) : LedgerRun := ⟨.start now, [], [], [], [], false⟩

def step (queueMax : Nat) (run : LedgerRun) : LedgerEvent → LedgerRun
  | .enqueue entry =>
    let queued : QueuedEntry := ⟨run.enqueued.length, entry⟩
    let excess := ReserveLedgerWriter.excess queueMax (run.writer.queue ++ [queued])
    { run with
      writer := run.writer.enqueue queueMax queued
      enqueued := run.enqueued ++ [queued]
      dropped := run.dropped ++ excess
      overflowed := run.overflowed || !excess.isEmpty }
  | .flush now =>
    let flushed := run.writer.beginFlush now
    { run with
      writer := flushed.1
      summaries := run.summaries ++ flushed.2.toList
      overflowed := run.overflowed && run.writer.writing.isSome }
  | .settled ok now =>
    let settled := run.writer.endFlush now ok
    { run with
      writer := settled.1
      handed := run.handed ++ if ok then run.writer.writing.getD [] else []
      summaries := run.summaries ++ settled.2.toList }

def after (queueMax : Nat) (now : Int) (events : List LedgerEvent) : LedgerRun :=
  events.foldl (step queueMax) (start now)

/-- The entries counted as dropped, in the lines logged and since the last of them. -/
def counted (run : LedgerRun) : Nat :=
  (run.summaries.map LedgerSummary.dropped).sum + run.writer.dropped

/-- Every entry enqueued was handed to a write that succeeded, waits, or is counted as dropped,
and only one of these. -/
structure Partitioned (run : LedgerRun) : Prop where
  entries : run.enqueued.Perm (run.handed ++ (run.writer.queue ++ run.dropped))
  counted : run.counted = run.dropped.length

end LedgerRun

/-! ## What one call does -/

namespace ReserveLedgerWriter

variable {writer : ReserveLedgerWriter} {queueMax : Nat} {now : Int}

theorem excess_append_queue_enqueue (entry : QueuedEntry) :
    excess queueMax (writer.queue ++ [entry]) ++ (writer.enqueue queueMax entry).queue =
      writer.queue ++ [entry] := by
  unfold enqueue excess
  simp only
  split
  case isTrue => exact List.take_append_drop ..
  case isFalse fits => rw [Nat.sub_eq_zero_of_le (by omega), List.take_zero, List.nil_append]

theorem dropped_enqueue (entry : QueuedEntry) :
    (writer.enqueue queueMax entry).dropped =
      writer.dropped + (excess queueMax (writer.queue ++ [entry])).length := by
  unfold enqueue excess
  simp only
  split
  case isTrue => rw [List.length_take, Nat.min_eq_left (by omega)]
  case isFalse fits =>
    rw [Nat.sub_eq_zero_of_le (by omega), List.take_zero, List.length_nil, Nat.add_zero]

@[simp] theorem writing_enqueue (entry : QueuedEntry) :
    (writer.enqueue queueMax entry).writing = writer.writing := by
  unfold enqueue
  simp only
  split <;> rfl

@[simp] theorem queue_logSummary : (logSummary now writer).1.queue = writer.queue := by
  unfold logSummary
  split <;> rfl

@[simp] theorem writing_logSummary : (logSummary now writer).1.writing = writer.writing := by
  unfold logSummary
  split <;> rfl

theorem dropped_logSummary :
    (((logSummary now writer).2.toList.map LedgerSummary.dropped).sum +
      (logSummary now writer).1.dropped) = writer.dropped := by
  unfold logSummary
  split <;> simp

theorem beginFlush_cases (now : Int) (writer : ReserveLedgerWriter) :
    writer.beginFlush now = logSummary now writer ∨
      (writer.writing = none ∧ writer.queue ≠ [] ∧
        writer.beginFlush now =
          ({ writer with writing := some (writer.queue.take reserveLedgerBatch) }, none)) := by
  unfold beginFlush
  split
  case isTrue => exact Or.inl rfl
  case isFalse idle =>
    refine Or.inr ⟨?_, fun empty => idle (Or.inr (Or.inl empty)), rfl⟩
    exact Option.not_isSome_iff_eq_none.mp fun busy => idle (Or.inl busy)

theorem dropped_beginFlush :
    ((writer.beginFlush now).2.toList.map LedgerSummary.dropped).sum +
      (writer.beginFlush now).1.dropped = writer.dropped := by
  rcases beginFlush_cases now writer with skips | ⟨-, -, starts⟩
  · rw [skips]
    exact dropped_logSummary
  · rw [starts]
    exact Nat.zero_add _

theorem queue_beginFlush : (writer.beginFlush now).1.queue = writer.queue := by
  rcases beginFlush_cases now writer with skips | ⟨-, -, starts⟩
  · rw [skips, queue_logSummary]
  · rw [starts]

theorem dropped_endFlush (ok : Bool) :
    ((writer.endFlush now ok).2.toList.map LedgerSummary.dropped).sum +
      (writer.endFlush now ok).1.dropped = writer.dropped := by
  unfold endFlush
  split
  case h_1 => exact Nat.zero_add _
  case h_2 =>
    split
    case isTrue => exact dropped_logSummary
    case isFalse => exact dropped_logSummary

theorem writing_endFlush (ok : Bool) : (writer.endFlush now ok).1.writing = none := by
  unfold endFlush
  split
  case h_1 idle => exact idle
  case h_2 =>
    split
    case isTrue => exact writing_logSummary
    case isFalse => exact writing_logSummary

theorem queue_endFlush_false : (writer.endFlush now false).1.queue = writer.queue := by
  unfold endFlush
  split
  case h_1 => rfl
  case h_2 => exact queue_logSummary

theorem endFlush_of_idle (idle : writer.writing = none) (ok : Bool) :
    writer.endFlush now ok = (writer, none) := by
  rw [endFlush, idle]

theorem endFlush_of_ok {batch : List QueuedEntry} (writing : writer.writing = some batch) :
    (writer.endFlush now true).1.queue = writer.queue.drop batch.length := by
  rw [endFlush, writing]
  simp only [if_true, queue_logSummary]

end ReserveLedgerWriter

namespace LedgerRun

open ReserveLedgerWriter

variable {queueMax : Nat} {now : Int} {run : LedgerRun}

/-! ## The books of a run -/

/-- The entries of a run are told apart by the calls that brought them. -/
def Numbered (run : LedgerRun) : Prop :=
  run.enqueued.map QueuedEntry.call = List.range run.enqueued.length

theorem Numbered.nodup (numbered : run.Numbered) : run.enqueued.Nodup :=
  .of_map QueuedEntry.call (by rw [numbered]; exact List.nodup_range)

theorem numbered_step (numbered : run.Numbered) (event : LedgerEvent) :
    (run.step queueMax event).Numbered := by
  cases event with
  | enqueue entry =>
    unfold Numbered step
    simp only [List.map_append, List.map_cons, List.map_nil, List.length_append,
      List.length_cons, List.length_nil, List.range_succ]
    rw [numbered]
  | flush now => exact numbered
  | settled ok now => exact numbered

theorem counted_step (counted : run.counted = run.dropped.length) (event : LedgerEvent) :
    (run.step queueMax event).counted = (run.step queueMax event).dropped.length := by
  unfold LedgerRun.counted at counted ⊢
  cases event with
  | enqueue entry =>
    simp only [step, dropped_enqueue, List.length_append]
    omega
  | flush now =>
    simp only [step, List.map_append, List.sum_append]
    have logged : (_ + (run.writer.beginFlush now).1.dropped) = _ := dropped_beginFlush
    omega
  | settled ok now =>
    simp only [step, List.map_append, List.sum_append]
    have logged : (_ + (run.writer.endFlush now ok).1.dropped) = _ := dropped_endFlush ok
    omega

/-- The batch being written is the front of the queue until an `enqueue` overflows; from then on
one of its entries is counted as dropped. -/
structure BatchAligned (run : LedgerRun) (batch : List QueuedEntry) : Prop where
  filled : batch ≠ []
  front : run.overflowed = false → batch <+: run.writer.queue
  lost : run.overflowed = true → ∃ entry ∈ batch, entry ∈ run.dropped

def Aligned (run : LedgerRun) : Prop :=
  ∀ batch, run.writer.writing = some batch → run.BatchAligned batch

theorem aligned_start (now : Int) : (start now).Aligned := by
  intro batch writing
  cases writing

theorem BatchAligned.enqueue {batch : List QueuedEntry} (aligned : run.BatchAligned batch)
    (entry : LedgerEntry) : (run.step queueMax (.enqueue entry)).BatchAligned batch where
  filled := aligned.filled
  front := by
    intro within
    simp only [step, Bool.or_eq_false_iff, Bool.not_eq_false', List.isEmpty_iff] at within ⊢
    have kept : excess queueMax (run.writer.queue ++ _) ++ _ = _ :=
      excess_append_queue_enqueue ⟨run.enqueued.length, entry⟩
    rw [within.2, List.nil_append] at kept
    rw [kept]
    exact (aligned.front within.1).trans (List.prefix_append ..)
  lost := by
    intro ended
    simp only [step, Bool.or_eq_true, Bool.not_eq_true', List.isEmpty_eq_false_iff] at ended ⊢
    cases before : run.overflowed with
    | true =>
      obtain ⟨held, member, dropped⟩ := aligned.lost before
      exact ⟨held, member, List.mem_append_left _ dropped⟩
    | false =>
      -- The entry dropped first is the first of the batch.
      have overflows := ended.resolve_left (before ▸ Bool.false_ne_true)
      have split : excess queueMax (run.writer.queue ++ _) ++ _ = _ :=
        excess_append_queue_enqueue ⟨run.enqueued.length, entry⟩
      obtain ⟨rest, queue⟩ := aligned.front before
      obtain ⟨first, others, rfl⟩ := List.exists_cons_of_ne_nil aligned.filled
      obtain ⟨dropped, more, excess⟩ := List.exists_cons_of_ne_nil overflows
      rw [excess, ← queue] at split
      obtain rfl : dropped = first := (List.cons.inj split).1
      refine ⟨dropped, List.mem_cons_self, List.mem_append_right _ ?_⟩
      rw [excess]
      exact List.mem_cons_self

theorem aligned_step (aligned : run.Aligned) (event : LedgerEvent) :
    (run.step queueMax event).Aligned := by
  intro batch writing
  cases event with
  | enqueue entry => exact (aligned batch ((writing_enqueue _).symm.trans writing)).enqueue entry
  | flush now =>
    rcases beginFlush_cases now run.writer with skips | ⟨idle, filled, starts⟩
    · have same : (run.step queueMax (.flush now)).writer.writing = run.writer.writing := by
        simp only [step, skips, writing_logSummary]
      have before := aligned batch (same.symm.trans writing)
      have busy : run.writer.writing = some batch := same.symm.trans writing
      refine ⟨before.filled, ?_, ?_⟩ <;> simp only [step, busy, queue_beginFlush,
        Option.isSome_some, Bool.and_true]
      · exact before.front
      · exact before.lost
    · simp only [step, starts, Option.some.injEq] at writing
      subst writing
      refine ⟨?_, ?_, ?_⟩
      · intro none
        exact filled ((List.take_eq_nil_iff.mp none).resolve_left (by decide))
      · intro _
        simp only [step, starts]
        exact List.take_prefix ..
      · intro ended
        simp [step, idle] at ended
  | settled ok now => cases (writing_endFlush ok).symm.trans writing

/-! ## The entries -/

/-- Whether the step ends a write that succeeded, after an `enqueue` overflowed during it. -/
def endsOverflownWrite (run : LedgerRun) : LedgerEvent → Bool
  | .settled true _ => run.writer.writing.isSome && run.overflowed
  | _ => false

theorem entries_step (aligned : run.Aligned)
    (entries : run.enqueued.Perm (run.handed ++ (run.writer.queue ++ run.dropped)))
    {event : LedgerEvent} (within : run.endsOverflownWrite event = false) :
    (run.step queueMax event).enqueued.Perm ((run.step queueMax event).handed ++
      ((run.step queueMax event).writer.queue ++ (run.step queueMax event).dropped)) := by
  rw [List.perm_iff_count] at entries ⊢
  intro held
  have before := entries held
  cases event with
  | enqueue entry =>
    have whole : excess queueMax (run.writer.queue ++ _) ++ _ = _ :=
      excess_append_queue_enqueue ⟨run.enqueued.length, entry⟩
    have split := congrArg (List.count held) whole
    simp only [step, List.count_append] at before split ⊢
    omega
  | flush now =>
    simp only [step, queue_beginFlush]
    exact before
  | settled ok now =>
    cases ok with
    | false =>
      simp only [step, queue_endFlush_false, Bool.false_eq_true, if_false, List.append_nil]
      exact before
    | true =>
      cases writing : run.writer.writing with
      | none =>
        simp only [step, endFlush_of_idle writing, writing, Option.getD_none, if_true,
          List.append_nil]
        exact before
      | some batch =>
        have fits : run.overflowed = false := by
          simpa [endsOverflownWrite, writing] using within
        obtain ⟨rest, queue⟩ := (aligned batch writing).front fits
        simp only [step, endFlush_of_ok writing, writing, Option.getD_some, if_true]
        rw [← queue, List.drop_left]
        rw [← queue] at before
        simp only [List.count_append] at before ⊢
        omega

theorem not_partitioned_of_overflown (numbered : run.Numbered) (aligned : run.Aligned)
    {event : LedgerEvent} (ended : run.endsOverflownWrite event = true) :
    ¬(run.step queueMax event).Partitioned := by
  intro partitioned
  unfold endsOverflownWrite at ended
  split at ended
  case h_2 => cases ended
  case h_1 now =>
    obtain ⟨busy, ended⟩ := Bool.and_eq_true_iff.mp ended
    obtain ⟨batch, writing⟩ := Option.isSome_iff_exists.mp busy
    obtain ⟨entry, handed, dropped⟩ := (aligned batch writing).lost ended
    have apart := (partitioned.entries.nodup_iff.mp numbered.nodup)
    simp only [step, writing, if_true, Option.getD_some] at apart
    refine (List.disjoint_of_nodup_append apart) (List.mem_append_right _ handed) ?_
    exact List.mem_append_right _ dropped

/-! ## Every run -/

theorem after_append (start : Int) (seen : List LedgerEvent) (event : LedgerEvent) :
    after queueMax start (seen ++ [event]) = (after queueMax start seen).step queueMax event :=
  List.foldl_append ..

theorem numbered_start (now : Int) : (start now).Numbered := rfl

theorem numbered_after (start : Int) (events : List LedgerEvent) :
    (after queueMax start events).Numbered :=
  foldl_preserves (numbered_start start) (fun _ event numbered => numbered_step numbered event)
    events

theorem aligned_after (start : Int) (events : List LedgerEvent) :
    (after queueMax start events).Aligned :=
  foldl_preserves (aligned_start start) (fun _ event aligned => aligned_step aligned event) events

theorem partitioned_after {start : Int} {events : List LedgerEvent}
    (within : ∀ seen event, seen ++ [event] <+: events →
      (after queueMax start seen).endsOverflownWrite event = false) :
    (after queueMax start events).Partitioned := by
  induction events using List.reverseRecOn with
  | nil => exact ⟨List.Perm.refl _, rfl⟩
  | append_singleton seen event ih =>
    have before := ih fun earlier first shorter =>
      within earlier first (shorter.trans (List.prefix_append ..))
    rw [after_append]
    exact ⟨entries_step (aligned_after start seen) before.entries
      (within seen event (List.prefix_refl _)), counted_step before.counted event⟩

/-- At every moment the entries enqueued are those handed to a successful write, those waiting
and those counted as dropped, just when no write succeeds that an `enqueue` overflowed. -/
theorem ledger_entries_partitioned_iff (queueMax : Nat) (start : Int) (events : List LedgerEvent) :
    (∀ seen, seen <+: events → (after queueMax start seen).Partitioned) ↔
      ∀ seen event, seen ++ [event] <+: events →
        (after queueMax start seen).endsOverflownWrite event = false := by
  constructor
  · intro partitioned seen event reached
    by_contra ended
    rw [Bool.not_eq_false] at ended
    have later := partitioned (seen ++ [event]) reached
    rw [after_append] at later
    exact not_partitioned_of_overflown (numbered_after start seen) (aligned_after start seen)
      ended later
  · intro within seen reached
    exact partitioned_after fun earlier event shorter =>
      within earlier event (shorter.trans reached)

/-- With room for one entry, the second is enqueued during the write of the first: it takes the
first one's place in the queue, and is removed from it in the first one's stead. -/
theorem entry_lost_behind_overflown_write :
    ¬(after 1 0 [.enqueue ⟨"user", "host", "cell", 1⟩, .flush 0,
      .enqueue ⟨"user", "other", "cell", 1⟩, .settled true 1]).Partitioned := by
  intro partitioned
  have lost := (partitioned.entries.mem_iff (a := ⟨1, ⟨"user", "other", "cell", 1⟩⟩)).mp
  exact absurd lost (by decide)

end LedgerRun

end OxeeUI.Relay
