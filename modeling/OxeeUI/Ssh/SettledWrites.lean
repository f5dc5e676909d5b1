import OxeeUI.Ssh.RunningWrites

/-!
# Everything is written and accepted in the end

For a transport that does not settle its writes itself and never throws.  As long
as the writer is open, each unsettled entry waits in its lane, is the business of
something on the stack, or waits for a drain that will settle it; and while there
is room what waits will be pumped.  Two branches break this, and lose an entry
that waits for a drain: a drain observed during a write that returns false lifts
the saturation without settling what waited for it, and what comes to wait while
a drain settles the others is dropped when the drain is through.
-/

namespace OxeeUI.Ssh

open TransportWriter Library

/-- The writer takes a branch that drops an entry which waits for a drain. -/
def WriterMachine.Loses (machine : WriterMachine) : WriterInput → Prop
  | .writeReturned accepted => accepted = some false ∧
      machine.writer.drainObservedDuringWrite = true ∧
      ∃ entry ∈ machine.writer.settleOnDrain, (machine.writer.entries entry).settled = false
  | .next => machine.stack.head? = some .clearSettleOnDrain ∧ machine.writer.closed = false ∧
      ∃ entry ∈ machine.writer.settleOnDrain, (machine.writer.entries entry).settled = false
  | _ => False

namespace WriterTask

/-- The task has the entry to settle, or closes the writer. -/
def Owns (writer : TransportWriter) (entry : ℕ) : WriterTask → Prop
  | .outside (.write write) => (writer.writes write).entry = entry
  | .afterSaturation write => (writer.writes write).entry = entry
  | .handleWriteSettlement held _ => held = entry
  | .release held _ => held = entry
  | .fail _ => True
  | _ => False

/-- The task leads to a pump, or closes the writer. -/
def Pumps (writer : TransportWriter) : WriterTask → Prop
  | .pump => True
  | .pumpLoop => True
  | .settleDrained => True
  | .fail _ => True
  | .afterSaturation write => (writer.entries (writer.writes write).entry).settled = false
  | .handleWriteSettlement entry _ => (writer.entries entry).settled = false
  | _ => False

end WriterTask

/-- After each entry that is settled the writer pumps, or fails. -/
def Backed : List WriterTask → Prop
  | [] => True
  | .release _ result :: rest =>
    ((result = .accepted ∧ .pump ∈ rest) ∨ ∃ error, .fail error ∈ rest) ∧ Backed rest
  | _ :: rest => Backed rest

def Touched (writer : TransportWriter) (stack : List WriterTask) (entry : ℕ) : Prop :=
  (∃ result, .handleWriteSettlement entry result ∈ stack) ∨
    (∃ result, .release entry result ∈ stack) ∨ entry ∈ writer.settleOnDrain ∨
    (entry < writer.admitted ∧ (writer.entries entry).settled = true)

def Returned (writer : TransportWriter) (entry : ℕ) : Prop :=
  ∃ write < writer.started, (writer.writes write).entry = entry ∧
    (writer.writes write).returned = true

structure Promised (writer : TransportWriter) (stack : List WriterTask) : Prop where
  owned : ∀ entry < writer.admitted, (writer.entries entry).settled = false →
    writer.Waiting entry ∨ (∃ task ∈ stack, task.Owns writer entry) ∨
    (entry ∈ writer.settleOnDrain ∧ (writer.saturated = true ∨ .settleDrained ∈ stack))
  pumps : writer.saturated = false → ∀ entry, writer.Waiting entry →
    ∃ task ∈ stack, task.Pumps writer
  backed : Backed stack
  accepted : ∀ entry < writer.admitted, ∀ result, (writer.entries entry).reports = [result] →
    result ≠ .accepted → ∃ error, .fail error ∈ stack
  returned : ∀ entry, Touched writer stack entry → Returned writer entry

section Stack

theorem Backed.rest {front rest : List WriterTask} (backed : Backed (front ++ rest)) :
    Backed rest := by
  induction front with
  | nil => exact backed
  | cons task others ih =>
    cases task with
    | release entry result => exact ih backed.2
    | outside call => exact ih backed
    | pump => exact ih backed
    | pumpLoop => exact ih backed
    | afterSaturation write => exact ih backed
    | useCallbackResult write => exact ih backed
    | handleWriteSettlement entry result => exact ih backed
    | fail error => exact ih backed
    | disposeQueued error => exact ih backed
    | disposeInFlight error => exact ih backed
    | settleDrained => exact ih backed
    | clearSettleOnDrain => exact ih backed

theorem backed_releases (entries : List ℕ) {rest : List WriterTask} (backed : Backed rest)
    (pump : WriterTask.pump ∈ rest) :
    Backed ((entries.map fun entry => .release entry .accepted) ++ rest) := by
  induction entries with
  | nil => exact backed
  | cons entry others ih => exact ⟨.inl ⟨rfl, List.mem_append_right _ pump⟩, ih⟩

end Stack

section Replace

variable {writer after : TransportWriter} {popped rest tasks : List WriterTask}

/-- The entries and the writes so far are as they were. -/
structure Alike (before after : TransportWriter) : Prop where
  entries : after.entries = before.entries
  admitted : after.admitted = before.admitted
  started : before.started ≤ after.started
  writes : ∀ write < before.started, (after.writes write).entry = (before.writes write).entry
  returned : ∀ write < before.started, (before.writes write).returned = true →
    (after.writes write).returned = true

namespace Alike

theorem refl (writer : TransportWriter) : Alike writer writer :=
  ⟨rfl, rfl, le_refl _, fun _ _ => rfl, fun _ _ => id⟩

theorem owns (alike : Alike writer after) {entry : ℕ} {task : WriterTask} (fits : task.Fits writer)
    (owns : task.Owns writer entry) : task.Owns after entry := by
  cases task with
  | outside call =>
    cases call with
    | write write => exact (alike.writes write fits).trans owns
    | settled held result => cases owns
    | turnedAway result => cases owns
    | saturationChange saturated => cases owns
    | failure error => cases owns
    | removeDrainListener => cases owns
  | afterSaturation write => exact (alike.writes write fits.1).trans owns
  | handleWriteSettlement held result => exact owns
  | release held result => exact owns
  | fail error => trivial
  | pump => cases owns
  | pumpLoop => cases owns
  | useCallbackResult write => cases owns
  | disposeQueued error => cases owns
  | disposeInFlight error => cases owns
  | settleDrained => cases owns
  | clearSettleOnDrain => cases owns

theorem pumps (alike : Alike writer after) {task : WriterTask} (fits : task.Fits writer)
    (pumps : task.Pumps writer) : task.Pumps after := by
  cases task with
  | afterSaturation write =>
    have unsettled : (after.entries (after.writes write).entry).settled = false := by
      rw [alike.entries, alike.writes write fits.1]
      exact pumps
    exact unsettled
  | handleWriteSettlement held result =>
    have unsettled : (after.entries held).settled = false := by
      rw [alike.entries]
      exact pumps
    exact unsettled
  | pump => trivial
  | pumpLoop => trivial
  | settleDrained => trivial
  | fail error => trivial
  | outside call => cases pumps
  | release held result => cases pumps
  | useCallbackResult write => cases pumps
  | disposeQueued error => cases pumps
  | disposeInFlight error => cases pumps
  | clearSettleOnDrain => cases pumps

theorem returnedOf (alike : Alike writer after) {entry : ℕ} (returned : Returned writer entry) :
    Returned after entry := by
  obtain ⟨write, early, same, finished⟩ := returned
  exact ⟨write, lt_of_lt_of_le early alike.started, (alike.writes write early).trans same,
    alike.returned write early finished⟩

end Alike

/-- What is popped from the stack and what is pushed for it, entry by entry. -/
structure Replaces (writer after : TransportWriter) (popped tasks rest : List WriterTask) :
    Prop where
  owns : ∀ task ∈ popped, ∀ entry, (writer.entries entry).settled = false →
    task.Owns writer entry → (∃ other ∈ tasks, other.Owns after entry) ∨
      (entry ∈ after.settleOnDrain ∧ after.saturated = true)
  waits : ∀ entry, writer.Waiting entry →
    after.Waiting entry ∨ ∃ other ∈ tasks, other.Owns after entry
  /-- What waits for a drain goes on waiting, or has its turn. -/
  drains : ∀ entry ∈ writer.settleOnDrain, (writer.entries entry).settled = false →
    (writer.saturated = true ∨ .settleDrained ∈ popped ++ rest) →
    (∃ other ∈ tasks, other.Owns after entry) ∨ (entry ∈ after.settleOnDrain ∧
      (after.saturated = true ∨ .settleDrained ∈ tasks ++ rest))
  pumps : after.saturated = false → ∀ entry, after.Waiting entry →
    (∃ other ∈ tasks ++ rest, other.Pumps after) ∨
      (writer.saturated = false ∧ writer.Waiting entry ∧ ∀ task ∈ popped, ¬ task.Pumps writer)
  fails : ∀ error, .fail error ∈ popped → .fail error ∈ tasks
  backed : Backed rest → Backed (tasks ++ rest)
  touched : ∀ entry, Touched after tasks entry →
    Returned after entry ∨ Touched writer popped entry

/-- One thing on the stack is replaced by what it leaves to do. -/
theorem Promised.replace (promised : Promised writer (popped ++ rest)) (alike : Alike writer after)
    (fits : ∀ task ∈ rest, task.Fits writer)
    (replaces : Replaces writer after popped tasks rest) : Promised after (tasks ++ rest) := by
  constructor
  case owned =>
    intro entry admitted unsettled
    rw [alike.admitted] at admitted
    rw [alike.entries] at unsettled
    have settledSoon : (∃ other ∈ tasks, other.Owns after entry) →
        ∃ task ∈ tasks ++ rest, task.Owns after entry := by
      rintro ⟨other, new, owner⟩
      exact ⟨other, List.mem_append_left _ new, owner⟩
    rcases promised.owned entry admitted unsettled with waits | ⟨task, member, owner⟩ |
      ⟨drained, settles⟩
    · exact (replaces.waits entry waits).imp id fun found => .inl (settledSoon found)
    · refine .inr ?_
      rcases List.mem_append.mp member with here | later
      · exact (replaces.owns task here entry unsettled owner).imp settledSoon
          fun waits => ⟨waits.1, .inl waits.2⟩
      · exact .inl ⟨task, List.mem_append_right _ later, alike.owns (fits task later) owner⟩
    · exact .inr ((replaces.drains entry drained unsettled settles).imp settledSoon id)
  case pumps =>
    intro room entry waits
    rcases replaces.pumps room entry waits with found | ⟨before, waited, idle⟩
    · exact found
    · obtain ⟨task, member, pump⟩ := promised.pumps before entry waited
      rcases List.mem_append.mp member with here | later
      · exact absurd pump (idle task here)
      · exact ⟨task, List.mem_append_right _ later, alike.pumps (fits task later) pump⟩
  case backed => exact replaces.backed promised.backed.rest
  case accepted =>
    intro entry admitted result reports different
    rw [alike.admitted] at admitted
    rw [alike.entries] at reports
    obtain ⟨error, member⟩ := promised.accepted entry admitted result reports different
    refine ⟨error, ?_⟩
    rcases List.mem_append.mp member with here | later
    · exact List.mem_append_left _ (replaces.fails error here)
    · exact List.mem_append_right _ later
  case returned =>
    intro entry touched
    have old : Touched writer popped entry → Returned after entry := by
      intro touched
      refine alike.returnedOf ?_
      rcases touched with ⟨result, member⟩ | ⟨result, member⟩ | other
      · exact promised.returned entry (.inl ⟨result, List.mem_append_left _ member⟩)
      · exact promised.returned entry (.inr (.inl ⟨result, List.mem_append_left _ member⟩))
      · exact promised.returned entry (.inr (.inr other))
    have new : Touched after tasks entry → Returned after entry := fun touched =>
      (replaces.touched entry touched).elim id old
    rcases touched with ⟨result, member⟩ | ⟨result, member⟩ | other
    · rcases List.mem_append.mp member with first | later
      · exact new (.inl ⟨result, first⟩)
      · exact alike.returnedOf
          (promised.returned entry (.inl ⟨result, List.mem_append_right _ later⟩))
    · rcases List.mem_append.mp member with first | later
      · exact new (.inr (.inl ⟨result, first⟩))
      · exact alike.returnedOf
          (promised.returned entry (.inr (.inl ⟨result, List.mem_append_right _ later⟩)))
    · exact new (.inr (.inr other))

/-- Where the queues and what waits for a drain are untouched as well. -/
theorem Promised.swap (promised : Promised writer (popped ++ rest)) (alike : Alike writer after)
    (fits : ∀ task ∈ rest, task.Fits writer)
    (queues : ∀ entry, after.Waiting entry ↔ writer.Waiting entry)
    (drained : after.settleOnDrain = writer.settleOnDrain)
    (saturated : after.saturated = writer.saturated)
    (owns : ∀ task ∈ popped, ∀ entry, (writer.entries entry).settled = false →
      task.Owns writer entry → ∃ other ∈ tasks, other.Owns after entry)
    (pumps : ∀ task ∈ popped, task.Pumps writer → writer.saturated = false →
      ∀ entry, writer.Waiting entry → ∃ other ∈ tasks ++ rest, other.Pumps after)
    (quiet : .settleDrained ∉ popped ∧ ∀ error, .fail error ∈ popped → .fail error ∈ tasks)
    (backed : Backed rest → Backed (tasks ++ rest))
    (returned : ∀ entry result, (.handleWriteSettlement entry result ∈ tasks ∨
      .release entry result ∈ tasks) → Returned after entry ∨ Touched writer popped entry) :
    Promised after (tasks ++ rest) := by
  refine promised.replace alike fits ?_
  constructor
  case owns => exact fun task member entry unsettled owner => .inl (owns task member entry unsettled owner)
  case waits => exact fun entry waits => .inl ((queues entry).mpr waits)
  case drains =>
    intro entry member _ settles
    rw [drained, saturated]
    refine .inr ⟨member, settles.imp id fun task => ?_⟩
    rcases List.mem_append.mp task with here | later
    · exact absurd here quiet.1
    · exact List.mem_append_right _ later
  case pumps =>
    intro room entry waits
    rw [saturated] at room
    have waited := (queues entry).mp waits
    by_cases idle : ∀ task ∈ popped, ¬ task.Pumps writer
    · exact .inr ⟨room, waited, idle⟩
    · simp only [not_forall, not_not] at idle
      obtain ⟨task, member, pump⟩ := idle
      exact .inl (pumps task member pump room entry waited)
  case fails => exact quiet.2
  case backed => exact backed
  case touched =>
    intro entry touched
    rcases touched with ⟨result, member⟩ | ⟨result, member⟩ | drain | settled
    · exact returned entry result (.inl member)
    · exact returned entry result (.inr member)
    · rw [drained] at drain
      exact .inr (.inr (.inr (.inl drain)))
    · rw [alike.admitted, alike.entries] at settled
      exact .inr (.inr (.inr (.inr settled)))

end Replace

end OxeeUI.Ssh
