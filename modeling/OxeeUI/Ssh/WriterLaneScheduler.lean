import Mathlib.Data.List.Basic

/-!
# The lanes of the multiplexer writer

Each lane is a queue that leaves holes behind its head and is compacted now and
then; read as a list it is first in, first out.  The scheduler writes liveness
frames first and lets an ordinary frame pass after four control frames.
-/

namespace OxeeUI.Ssh

universe u

inductive MultiplexerWriterLane
  | ordinary
  | control
  | liveness
  deriving DecidableEq

structure LaneQueue (T : Type u) where
  entries : List (Option T)
  head : ℕ
  inside : head ≤ entries.length
  filled : ∀ entry ∈ entries.drop head, entry.isSome

namespace LaneQueue

variable {T : Type u}

def create : LaneQueue T := ⟨[], 0, Nat.le_refl 0, by simp⟩

def hasEntries (queue : LaneQueue T) : Bool := decide (queue.head < queue.entries.length)

def remaining (queue : LaneQueue T) : List T := (queue.entries.drop queue.head).filterMap id

def push (queue : LaneQueue T) (entry : T) : LaneQueue T where
  entries := queue.entries ++ [some entry]
  head := queue.head
  inside := Nat.le_trans queue.inside (by simp)
  filled := by
    intro other member
    rw [List.drop_append_of_le_length queue.inside, List.mem_append] at member
    rcases member with before | here
    · exact queue.filled other before
    · rw [List.mem_singleton.mp here]
      rfl

/-- The queue after its first entry was taken, compacted when its holes outweigh the rest. -/
def advance (queue : LaneQueue T) (room : queue.head < queue.entries.length) : LaneQueue T :=
  let entries := queue.entries.set queue.head none
  let head := queue.head + 1
  have rest : entries.drop head = queue.entries.drop head :=
    List.drop_set_of_lt (Nat.lt_succ_self _)
  have filled : ∀ entry ∈ entries.drop head, entry.isSome := by
    intro entry member
    rw [rest] at member
    refine queue.filled entry ?_
    rw [List.drop_eq_getElem_cons room]
    exact List.mem_cons_of_mem _ member
  if head = entries.length ∨ (1024 ≤ head ∧ entries.length ≤ head * 2) then
    ⟨entries.drop head, 0, Nat.zero_le _, by rw [List.drop_zero]; exact filled⟩
  else
    ⟨entries, head, by rw [List.length_set]; exact room, filled⟩

def shift (queue : LaneQueue T) : Option T × LaneQueue T :=
  if room : queue.head < queue.entries.length then
    match queue.entries[queue.head] with
    | none => (none, queue)
    | some entry => (some entry, queue.advance room)
  else (none, queue)

def clear (queue : LaneQueue T) : List T × LaneQueue T := (queue.remaining, create)

theorem remaining_mk {entries : List (Option T)} {head : ℕ} {inside : head ≤ entries.length}
    {filled : ∀ entry ∈ entries.drop head, entry.isSome} :
    (LaneQueue.mk entries head inside filled).remaining = (entries.drop head).filterMap id := rfl

@[simp] theorem remaining_create : (create : LaneQueue T).remaining = [] := rfl

@[simp] theorem remaining_push (queue : LaneQueue T) (entry : T) :
    (queue.push entry).remaining = queue.remaining ++ [entry] := by
  unfold push remaining
  rw [List.drop_append_of_le_length queue.inside, List.filterMap_append]
  rfl

theorem remaining_advance (queue : LaneQueue T) (room : queue.head < queue.entries.length) :
    (queue.advance room).remaining = (queue.entries.drop (queue.head + 1)).filterMap id := by
  unfold advance
  dsimp only
  split
  · rw [remaining_mk, List.drop_zero, List.drop_set_of_lt (Nat.lt_succ_self _)]
  · rw [remaining_mk, List.drop_set_of_lt (Nat.lt_succ_self _)]

theorem shift_spec (queue : LaneQueue T) :
    queue.remaining = queue.shift.1.toList ++ queue.shift.2.remaining ∧
      (queue.shift.1 = none → queue.remaining = []) := by
  unfold shift
  split
  case isTrue room =>
    have unfolded : queue.remaining =
        (queue.entries[queue.head]).toList ++ (queue.advance room).remaining := by
      rw [remaining_advance]
      conv_lhs => rw [remaining, List.drop_eq_getElem_cons room]
      cases queue.entries[queue.head] with
      | none => rfl
      | some entry => rfl
    cases first : queue.entries[queue.head] with
    | none =>
      have here := queue.filled queue.entries[queue.head] (by
        rw [List.drop_eq_getElem_cons room]
        exact List.mem_cons_self)
      rw [first] at here
      cases here
    | some entry =>
      rw [first] at unfolded
      refine ⟨unfolded, fun none => ?_⟩
      cases none
  case isFalse full =>
    have empty : queue.remaining = [] := by
      rw [remaining, List.drop_eq_nil_of_le (Nat.not_lt.mp full)]
      rfl
    exact ⟨by simp, fun _ => empty⟩

theorem hasEntries_iff (queue : LaneQueue T) : queue.hasEntries = true ↔ queue.remaining ≠ [] := by
  rw [hasEntries, decide_eq_true_eq]
  constructor
  · intro room empty
    have first := queue.filled queue.entries[queue.head] (by
      rw [List.drop_eq_getElem_cons room]
      exact List.mem_cons_self)
    rw [remaining, List.drop_eq_getElem_cons room] at empty
    cases taken : queue.entries[queue.head] with
    | none =>
      rw [taken] at first
      cases first
    | some entry =>
      rw [taken] at empty
      cases empty
  · intro filled
    by_contra full
    refine filled ?_
    rw [remaining, List.drop_eq_nil_of_le (Nat.not_lt.mp full)]
    rfl

end LaneQueue

def controlWritesBeforeOrdinary : ℕ := 4

structure WriterLaneScheduler (T : Type u) where
  lanes : MultiplexerWriterLane → LaneQueue T
  controlWritesSinceOrdinary : ℕ

namespace WriterLaneScheduler

variable {T : Type u}

def create : WriterLaneScheduler T := ⟨fun _ => .create, 0⟩

def setLane (scheduler : WriterLaneScheduler T) (lane : MultiplexerWriterLane)
    (queue : LaneQueue T) : WriterLaneScheduler T :=
  { scheduler with lanes := Function.update scheduler.lanes lane queue }

def enqueue (scheduler : WriterLaneScheduler T) (entry : T) (lane : MultiplexerWriterLane) :
    WriterLaneScheduler T :=
  scheduler.setLane lane ((scheduler.lanes lane).push entry)

def shift (scheduler : WriterLaneScheduler T) (lane : MultiplexerWriterLane) :
    Option T × WriterLaneScheduler T :=
  let (entry, queue) := (scheduler.lanes lane).shift
  (entry, scheduler.setLane lane queue)

def select (scheduler : WriterLaneScheduler T) : Option T × WriterLaneScheduler T :=
  match scheduler.shift .liveness with
  | (some liveness, after) => (some liveness, after)
  | (none, scheduler) =>
    if (scheduler.lanes .control).hasEntries ∧ (!(scheduler.lanes .ordinary).hasEntries ∨
        scheduler.controlWritesSinceOrdinary < controlWritesBeforeOrdinary) then
      shift { scheduler with
        controlWritesSinceOrdinary := scheduler.controlWritesSinceOrdinary + 1 } .control
    else
      match scheduler.shift .ordinary with
      | (some ordinary, after) =>
        (some ordinary, { after with controlWritesSinceOrdinary := 0 })
      | (none, scheduler) => scheduler.shift .control

def clear (scheduler : WriterLaneScheduler T) : List T × WriterLaneScheduler T :=
  ((scheduler.lanes .liveness).clear.1 ++ (scheduler.lanes .control).clear.1 ++
      (scheduler.lanes .ordinary).clear.1,
    create)

def waiting (scheduler : WriterLaneScheduler T) (lane : MultiplexerWriterLane) : List T :=
  (scheduler.lanes lane).remaining

theorem waiting_setLane (scheduler : WriterLaneScheduler T) (lane other : MultiplexerWriterLane)
    (queue : LaneQueue T) :
    (scheduler.setLane lane queue).waiting other =
      if other = lane then queue.remaining else scheduler.waiting other := by
  unfold setLane waiting
  dsimp only
  split
  case isTrue same => rw [same, Function.update_self]
  case isFalse different => rw [Function.update_of_ne different]

theorem waiting_enqueue (scheduler : WriterLaneScheduler T) (entry : T)
    (lane other : MultiplexerWriterLane) :
    (scheduler.enqueue entry lane).waiting other =
      scheduler.waiting other ++ if other = lane then [entry] else [] := by
  rw [enqueue, waiting_setLane]
  split
  case isTrue same =>
    rw [same, LaneQueue.remaining_push]
    rfl
  case isFalse => rw [List.append_nil]

theorem mem_clear {scheduler : WriterLaneScheduler T} {entry : T} :
    entry ∈ scheduler.clear.1 ↔ ∃ lane, entry ∈ scheduler.waiting lane := by
  simp only [clear, LaneQueue.clear, List.mem_append]
  constructor
  · rintro ((liveness | control) | ordinary)
    · exact ⟨.liveness, liveness⟩
    · exact ⟨.control, control⟩
    · exact ⟨.ordinary, ordinary⟩
  · rintro ⟨lane, member⟩
    cases lane with
    | ordinary => exact .inr member
    | control => exact .inl (.inr member)
    | liveness => exact .inl (.inl member)

/-- One lane gave up its first entry, if any did; the others are as they were. -/
structure Takes (before : WriterLaneScheduler T) (result : Option T × WriterLaneScheduler T)
    (lane : MultiplexerWriterLane) : Prop where
  taken : before.waiting lane = result.1.toList ++ result.2.waiting lane
  others : ∀ other, other ≠ lane → result.2.waiting other = before.waiting other

theorem takes_shift (scheduler : WriterLaneScheduler T) (lane : MultiplexerWriterLane) :
    Takes scheduler (scheduler.shift lane) lane ∧
      ((scheduler.shift lane).1 = none → scheduler.waiting lane = []) := by
  have spec := (scheduler.lanes lane).shift_spec
  refine ⟨⟨?_, fun other different => ?_⟩, spec.2⟩
  · unfold shift
    dsimp only
    rw [waiting_setLane, if_pos rfl]
    exact spec.1
  · unfold shift
    dsimp only
    rw [waiting_setLane, if_neg different]

theorem shift_none {scheduler : WriterLaneScheduler T} {lane : MultiplexerWriterLane}
    (none : (scheduler.shift lane).1 = none) (other : MultiplexerWriterLane) :
    (scheduler.shift lane).2.waiting other = scheduler.waiting other := by
  have spec := takes_shift scheduler lane
  by_cases same : other = lane
  · have taken := spec.1.taken
    rw [none] at taken
    rw [same]
    exact taken.symm
  · exact spec.1.others other same

/-- Selecting takes the first entry of some lane, or there is none. -/
theorem select_spec (scheduler : WriterLaneScheduler T) :
    (∃ lane, Takes scheduler scheduler.select lane) ∧
      (scheduler.select.1 = none → ∀ lane, scheduler.waiting lane = []) := by
  unfold select
  have liveness := takes_shift scheduler .liveness
  have quiet := @shift_none _ scheduler .liveness
  cases first : scheduler.shift .liveness with
  | mk taken after =>
    rw [first] at liveness quiet
    cases taken with
    | some entry =>
      refine ⟨⟨.liveness, liveness.1⟩, fun none => ?_⟩
      cases none
    | none =>
      have same := quiet rfl
      have noLiveness := liveness.2 rfl
      dsimp only at same ⊢
      split
      case isTrue chosen =>
        have counted : ∀ lane, WriterLaneScheduler.waiting { after with
            controlWritesSinceOrdinary := after.controlWritesSinceOrdinary + 1 } lane =
            scheduler.waiting lane := same
        have control := takes_shift { after with
          controlWritesSinceOrdinary := after.controlWritesSinceOrdinary + 1 } .control
        refine ⟨⟨.control, ⟨?_, fun other different => ?_⟩⟩, fun none => ?_⟩
        · rw [← counted]
          exact control.1.taken
        · rw [← counted]
          exact control.1.others other different
        · exact absurd (control.2 none) ((LaneQueue.hasEntries_iff _).mp chosen.1)
      case isFalse passed =>
        have ordinary := takes_shift after .ordinary
        have still := @shift_none _ after .ordinary
        cases second : after.shift .ordinary with
        | mk taken later =>
          rw [second] at ordinary still
          cases taken with
          | some entry =>
            refine ⟨⟨.ordinary, ⟨?_, fun other different => ?_⟩⟩, fun none => ?_⟩
            · rw [← same]
              exact ordinary.1.taken
            · rw [← same]
              exact ordinary.1.others other different
            · cases none
          | none =>
            have kept := still rfl
            have noOrdinary := ordinary.2 rfl
            dsimp only at kept ⊢
            have control := takes_shift later .control
            refine ⟨⟨.control, ⟨?_, fun other different => ?_⟩⟩, fun none lane => ?_⟩
            · rw [← same, ← kept]
              exact control.1.taken
            · rw [← same, ← kept]
              exact control.1.others other different
            · cases lane with
              | ordinary => rw [← same]; exact noOrdinary
              | control => rw [← same, ← kept]; exact control.2 none
              | liveness => exact noLiveness

end WriterLaneScheduler

end OxeeUI.Ssh
