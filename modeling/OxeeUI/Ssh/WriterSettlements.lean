import OxeeUI.Ssh.SettledRuns

/-!
# What becomes of every entry

Every run settles each entry at most once and truthfully.  A writer whose
transport neither throws nor settles its writes itself is through with every
entry when it is open, not saturated and quiet, if no step of the run loses one.
-/

namespace OxeeUI.Ssh

open TransportWriter Library

variable {transport : MultiplexerTransport}

instance (machine : WriterMachine) : (input : WriterInput) → Decidable (machine.Loses input)
  | .writeReturned accepted => inferInstanceAs (Decidable (accepted = some false ∧ _ ∧ _))
  | .next => inferInstanceAs (Decidable (machine.stack.head? = some .clearSettleOnDrain ∧ _ ∧ _))
  | .enqueue _ _ => .isFalse id
  | .drain => .isFalse id
  | .dispose _ => .isFalse id
  | .settlement _ _ => .isFalse id
  | .writeThrew _ => .isFalse id
  | .callReturned => .isFalse id

/-- A step of a transport that does not throw, on which no entry is lost. -/
structure KeepingStep (transport : MultiplexerTransport) (before : WriterMachine)
    (input : WriterInput) (after : WriterMachine) : Prop where
  step : WriterStep transport before input after
  returns : ∀ error, input ≠ .writeThrew error
  keeps : ¬ before.Loses input

section Step

variable {before after : WriterMachine} {input : WriterInput}

/-- What disposing does happens to a closed writer only. -/
theorem Standing.perform {writer : TransportWriter} {task : WriterTask} {rest : List WriterTask}
    (settling : transport.supportsWriteSettlement = false)
    (standing : Standing writer (task :: rest))
    (keeps : ¬ WriterMachine.Loses ⟨writer, task :: rest⟩ .next)
    {result : TransportWriter × List WriterTask}
    (performed : writer.perform transport task = some result)
    (isOpen : result.1.closed = false) : Promised result.1 (result.2 ++ rest) := by
  have fits := standing.coherent.fits task List.mem_cons_self
  cases task with
  | outside call => cases performed
  | pump =>
    cases performed
    exact standing.pump
  | pumpLoop =>
    cases performed
    exact standing.pumpLoop
  | afterSaturation write =>
    cases performed
    exact standing.afterSaturation settling
  | useCallbackResult write =>
    cases performed
    exact standing.useCallbackResult
  | handleWriteSettlement entry settlement =>
    cases performed
    exact standing.handleWriteSettlement
  | release entry settlement =>
    cases performed
    exact standing.release
  | fail error =>
    cases performed
    have failed : (writer.fail error).1.closed = true := by
      simp [TransportWriter.fail, TransportWriter.dispose, standing.isOpen]
    rw [isOpen] at failed
    cases failed
  | disposeQueued error =>
    have closed : writer.closed = true := fits
    rw [standing.isOpen] at closed
    cases closed
  | disposeInFlight error =>
    have closed : writer.closed = true := fits
    rw [standing.isOpen] at closed
    cases closed
  | settleDrained =>
    cases performed
    exact standing.settleDrained
  | clearSettleOnDrain =>
    cases performed
    refine standing.clearSettleOnDrain fun entry member => ?_
    by_contra unsettled
    exact keeps ⟨rfl, standing.isOpen, entry, member, Bool.not_eq_true _ ▸ unsettled⟩

theorem Standing.step (settling : transport.supportsWriteSettlement = false)
    (standing : Standing before.writer before.stack)
    (step : KeepingStep transport before input after) (isOpen : after.writer.closed = false) :
    Promised after.writer after.stack := by
  obtain ⟨popped, rest, result, shape, rfl, piece⟩ := step.step.piece
  obtain ⟨writer, stack⟩ := before
  have same : stack = popped ++ rest := congrArg WriterMachine.stack shape
  subst same
  cases piece with
  | enqueue bytes lane => exact standing.enqueue bytes lane
  | drain => exact standing.handleDrain
  | dispose error =>
    have disposed : (writer.dispose error).1.closed = true := by
      unfold TransportWriter.dispose
      split
      case isTrue closed => exact closed
      case isFalse => rfl
    rw [isOpen] at disposed
    cases disposed
  | settlement write result early => exact standing.onWriteSettled early result
  | writeReturned write accepted =>
    refine standing.writeReturned settling fun refused observed entry member => ?_
    by_contra unsettled
    exact step.keeps ⟨refused, observed, entry, member, by simpa using unsettled⟩
  | writeThrew write error => exact absurd rfl (step.returns error)
  | callReturned call other => exact standing.callReturned other
  | next task result performed => exact standing.perform settling step.keeps performed isOpen

end Step

/-- What holds of every machine that a run reaches without losing an entry. -/
structure Keeping (machine : WriterMachine) : Prop where
  coherent : Coherent machine
  framed : Framed machine
  promised : machine.writer.closed = false → Promised machine.writer machine.stack

theorem keeping_start (transport : MultiplexerTransport) : Keeping (.start transport) where
  coherent := coherent_start transport
  framed := framed_start transport
  promised := fun _ =>
    { owned := fun _ early => absurd early (Nat.not_lt_zero _)
      pumps := fun _ _ waits => by
        obtain ⟨lane, member⟩ := waits
        cases member
      backed := trivial
      accepted := fun _ early => absurd early (Nat.not_lt_zero _)
      returned := fun entry touched => by
        rcases touched with ⟨_, member⟩ | ⟨_, member⟩ | member | ⟨early, _⟩
        · cases member
        · cases member
        · cases member
        · exact absurd early (Nat.not_lt_zero _) }

theorem Keeping.step {before after : WriterMachine} {input : WriterInput}
    (settling : transport.supportsWriteSettlement = false) (keeping : Keeping before)
    (step : KeepingStep transport before input after) : Keeping after where
  coherent := keeping.coherent.step step.step
  framed := keeping.framed.step step.step
  promised := by
    intro isOpen
    have wasOpen : before.writer.closed = false := by
      cases closed : before.writer.closed with
      | false => rfl
      | true =>
        rw [(keeping.coherent.grows step.step).closed closed] at isOpen
        cases isOpen
    exact Standing.step settling ⟨keeping.coherent, keeping.framed, wasOpen,
      keeping.promised wasOpen⟩ step isOpen

theorem keeping_run (settling : transport.supportsWriteSettlement = false)
    {inputs : List WriterInput} {machine : WriterMachine}
    (run : Run (KeepingStep transport) (.start transport) inputs machine) : Keeping machine :=
  run.preserves (fun _ _ _ keeping step => keeping.step settling step) (keeping_start transport)

section Settlements

variable {machine : WriterMachine} {entry : ℕ}

theorem reported_once (coherent : Coherent machine) (early : entry < machine.writer.admitted) :
    (machine.writer.entries entry).reports.length ≤ 1 ∧
      ∀ result ∈ (machine.writer.entries entry).reports, machine.writer.Truthful entry result := by
  have reported := coherent.sound.kept.reported entry early
  unfold Reported at reported
  split at reported
  · obtain ⟨result, reports, truth⟩ := reported
    rw [reports]
    refine ⟨le_refl _, fun other member => ?_⟩
    rw [List.mem_singleton.mp member]
    exact truth
  · rw [reported]
    exact ⟨Nat.zero_le _, fun result member => by cases member⟩

theorem reported_when_closed (coherent : Coherent machine) (closed : machine.writer.closed = true)
    (through : ∀ task ∈ machine.stack, task.settles = false)
    (early : entry < machine.writer.admitted) :
    (machine.writer.entries entry).reports.length = 1 := by
  have settled : (machine.writer.entries entry).settled = true := by
    cases unsettled : (machine.writer.entries entry).settled with
    | true => rfl
    | false =>
      have pending : ∃ task ∈ machine.stack, task.settles = true := by
        rcases coherent.disposing closed entry early unsettled with ⟨_, error, member⟩ |
          ⟨result, member⟩ | ⟨_, ⟨error, member⟩ | ⟨error, member⟩⟩
        · exact ⟨_, member, rfl⟩
        · exact ⟨_, member, rfl⟩
        · exact ⟨_, member, rfl⟩
        · exact ⟨_, member, rfl⟩
      obtain ⟨task, member, settles⟩ := pending
      rw [through task member] at settles
      cases settles
  have reported := coherent.sound.kept.reported entry early
  rw [Reported, if_pos settled] at reported
  obtain ⟨result, reports, _⟩ := reported
  rw [reports, List.length_singleton]

theorem accepted_when_quiet (keeping : Keeping machine) (isOpen : machine.writer.closed = false)
    (room : machine.writer.saturated = false) (quiet : machine.stack = [])
    (early : entry < machine.writer.admitted) :
    machine.writer.Written entry ∧ (machine.writer.entries entry).reports = [.accepted] := by
  have promised := keeping.promised isOpen
  rw [quiet] at promised
  have settled : (machine.writer.entries entry).settled = true := by
    cases unsettled : (machine.writer.entries entry).settled with
    | true => rfl
    | false =>
      rcases promised.owned entry early unsettled with waits | ⟨task, member, _⟩ |
        ⟨_, full | member⟩
      · obtain ⟨task, member, _⟩ := promised.pumps room entry waits
        cases member
      · cases member
      · rw [room] at full
        cases full
      · cases member
  have reported := keeping.coherent.sound.kept.reported entry early
  rw [Reported, if_pos settled] at reported
  obtain ⟨result, reports, truth⟩ := reported
  have accepted : result = .accepted := by
    by_contra different
    obtain ⟨error, member⟩ := promised.accepted entry early result reports different
    cases member
  rw [accepted] at reports truth
  exact ⟨truth, reports⟩

end Settlements

/-- The writer settles every write once and truthfully, and is through with all of them when it
is quiet, unless a step loses an entry. -/
theorem writer_settles_writes {inputs : List WriterInput} {machine : WriterMachine}
    (run : Run (WriterStep transport) (.start transport) inputs machine) :
    (∀ entry < machine.writer.admitted, (machine.writer.entries entry).reports.length ≤ 1 ∧
      ∀ result ∈ (machine.writer.entries entry).reports, machine.writer.Truthful entry result) ∧
    (machine.writer.closed = true → (∀ task ∈ machine.stack, task.settles = false) →
      ∀ entry < machine.writer.admitted, (machine.writer.entries entry).reports.length = 1) ∧
    (∀ lane, machine.writer.writtenIn lane <+: machine.writer.admittedIn lane ∧
      (machine.writer.admittedIn lane).Nodup) ∧
    Counted machine.writer ∧
    (transport.supportsWriteSettlement = false →
      Run (KeepingStep transport) (.start transport) inputs machine →
      machine.writer.closed = false → machine.writer.saturated = false → machine.stack = [] →
      ∀ entry < machine.writer.admitted, machine.writer.Written entry ∧
        (machine.writer.entries entry).reports = [.accepted]) := by
  have coherent := coherent_run run
  refine ⟨fun entry early => reported_once coherent early, fun closed through entry early =>
    reported_when_closed coherent closed through early, fun lane =>
    ⟨coherent.sound.kept.prefixes lane, admittedIn_nodup _ lane⟩, coherent.sound.kept.counted, ?_⟩
  intro settling keeping isOpen room quiet entry early
  exact accepted_when_quiet (keeping_run settling keeping) isOpen room quiet early

section Examples

/-- A transport that reports drains, and does not settle its writes itself. -/
def drainingTransport : MultiplexerTransport := ⟨true, true, false⟩

def keepingStep (transport : MultiplexerTransport) (machine : WriterMachine)
    (input : WriterInput) : Option WriterMachine :=
  match input with
  | .writeThrew _ => none
  | other => if machine.Loses other then none else machine.step transport other

theorem keepingStep_spec {before after : WriterMachine} {input : WriterInput}
    (step : keepingStep transport before input = some after) :
    KeepingStep transport before input after := by
  unfold keepingStep at step
  split at step
  · cases step
  case h_2 other plain =>
    rw [Option.ite_none_left_eq_some] at step
    exact ⟨step.2, plain, step.1⟩

/-- One entry that is written at once, and one that waits for a drain. -/
def keptInputs : List WriterInput :=
  [.enqueue 1 .ordinary, .next, .next, .writeReturned (some true), .next, .next, .callReturned,
    .next, .next, .next,
    .enqueue 2 .control, .next, .next, .writeReturned (some false), .callReturned, .next, .next,
    .next, .drain, .callReturned, .next, .next, .callReturned, .next, .next, .next]

theorem drained_write_is_accepted : ∃ machine,
    Run (WriterStep drainingTransport) (.start drainingTransport) keptInputs machine ∧
    machine.writer.Written 1 ∧ (machine.writer.entries 1).reports = [.accepted] := by
  have quiet : (keptInputs.foldlM (keepingStep drainingTransport) (.start drainingTransport)).map
      (fun machine => (machine.writer.closed, machine.writer.saturated, machine.stack,
        machine.writer.admitted)) = some (false, false, [], 2) := by
    decide +kernel
  obtain ⟨machine, ran, facts⟩ := Option.map_eq_some_iff.mp quiet
  rw [Prod.mk.injEq, Prod.mk.injEq, Prod.mk.injEq] at facts
  obtain ⟨isOpen, room, stack, count⟩ := facts
  have keeping := (Run.of_foldlM ran).mono fun _ _ _ step => keepingStep_spec step
  have run := keeping.mono fun _ _ _ step => step.step
  obtain ⟨_, _, _, _, accepted⟩ := writer_settles_writes run
  refine ⟨machine, run, accepted rfl keeping isOpen room stack 1 ?_⟩
  rw [count]
  exact Nat.one_lt_two

/-- A liveness frame that is written while another entry waits for a drain, and during whose
write the drain is observed. -/
def losingInputs : List WriterInput :=
  [.enqueue 1 .ordinary, .next, .next, .writeReturned (some false), .callReturned, .next, .next,
    .next, .enqueue 1 .liveness, .drain, .writeReturned (some false), .callReturned, .next, .next,
    .next, .callReturned, .next, .next, .next]

theorem drain_during_write_loses_entry : ∃ machine,
    Run (WriterStep drainingTransport) (.start drainingTransport) losingInputs machine ∧
    (∀ error, .writeThrew error ∉ losingInputs) ∧ machine.writer.closed = false ∧
    machine.writer.saturated = false ∧ machine.stack = [] ∧ 0 < machine.writer.admitted ∧
    (machine.writer.entries 0).reports = [] := by
  have lost : (losingInputs.foldlM (WriterMachine.step drainingTransport)
      (.start drainingTransport)).map
      (fun machine => (machine.writer.closed, machine.writer.saturated, machine.stack,
        machine.writer.admitted, (machine.writer.entries 0).reports)) =
      some (false, false, [], 2, []) := by
    decide +kernel
  obtain ⟨machine, ran, facts⟩ := Option.map_eq_some_iff.mp lost
  simp only [Prod.mk.injEq] at facts
  obtain ⟨isOpen, room, stack, count, silent⟩ := facts
  exact ⟨machine, Run.of_foldlM ran, by simp [losingInputs], isOpen, room, stack,
    count ▸ Nat.zero_lt_two, silent⟩

end Examples

end OxeeUI.Ssh
