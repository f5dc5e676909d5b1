import OxeeUI.Library.Run
import OxeeUI.Ssh.WriterSteps

/-!
# Runs of a writer

Whatever calls of the writer nest in one another, and whatever the transport
answers: every entry is told once and truthfully what became of it, each lane
reaches the transport in order, the counters are right at every moment, and once
disposing is through nothing is left unsettled.
-/

namespace OxeeUI.Ssh

open TransportWriter Library

/-- Once the writer is closed, what is not settled is still on the list of what disposing does. -/
def Disposing (writer : TransportWriter) (stack : List WriterTask) : Prop :=
  writer.closed = true → ∀ entry < writer.admitted, (writer.entries entry).settled = false →
    (writer.Waiting entry ∧ ∃ error, WriterTask.disposeQueued error ∈ stack) ∨
    (∃ result, WriterTask.release entry result ∈ stack) ∨
    (writer.Written entry ∧ ((∃ error, WriterTask.disposeQueued error ∈ stack) ∨
      ∃ error, WriterTask.disposeInFlight error ∈ stack))

def WriterTask.settles : WriterTask → Bool
  | .release _ _ => true
  | .disposeQueued _ => true
  | .disposeInFlight _ => true
  | _ => false

/-- A closed writer admits nothing and takes nothing from its queues. -/
def Rests (before after : TransportWriter) : Prop :=
  after.closed = true → before.closed = true ∧ after.admitted = before.admitted ∧
    after.scheduler = before.scheduler

structure Coherent (machine : WriterMachine) : Prop where
  sound : Sound machine.writer
  fits : ∀ task ∈ machine.stack, task.Fits machine.writer
  disposing : Disposing machine.writer machine.stack

section Disposal

variable {before after : TransportWriter} {old new : List WriterTask}

theorem Disposing.keep (disposing : Disposing before old) (grows : Grows before after)
    (rests : Rests before after)
    (stack : ∀ task ∈ old, task.settles = true → task ∈ new) : Disposing after new := by
  intro closed entry admitted unsettled
  obtain ⟨was, count, queues⟩ := rests closed
  rw [count] at admitted
  have held : (before.entries entry).settled = false := by
    cases settled : (before.entries entry).settled with
    | false => rfl
    | true => rw [grows.settled entry admitted settled] at unsettled; cases unsettled
  rcases disposing was entry admitted held with ⟨⟨lane, waits⟩, error, task⟩ | pending | written
  · refine .inl ⟨⟨lane, ?_⟩, error, stack _ task rfl⟩
    rw [queues]
    exact waits
  · obtain ⟨result, task⟩ := pending
    exact .inr (.inl ⟨result, stack _ task rfl⟩)
  · obtain ⟨written, ⟨error, task⟩ | ⟨error, task⟩⟩ := written
    · exact .inr (.inr ⟨grows.written written, .inl ⟨error, stack _ task rfl⟩⟩)
    · exact .inr (.inr ⟨grows.written written, .inr ⟨error, stack _ task rfl⟩⟩)

theorem Coherent.push {writer : TransportWriter} {rest : List WriterTask}
    {result : TransportWriter × List WriterTask} (fits : ∀ task ∈ rest, task.Fits writer)
    (moves : Moves writer result) (disposing : Disposing result.1 (result.2 ++ rest)) :
    Coherent (WriterMachine.push ⟨writer, rest⟩ result) where
  sound := moves.sound
  fits := fits_append moves.fits fun task member => (fits task member).grow moves.grows
  disposing := disposing

variable {writer : TransportWriter} {rest : List WriterTask} {tasks : List WriterTask}

theorem Coherent.pushResting {task : WriterTask} (coherent : Coherent ⟨writer, task :: rest⟩)
    (idle : task.settles = false) {result : TransportWriter × List WriterTask}
    (moves : Moves writer result) (rests : Rests writer result.1) :
    Coherent (WriterMachine.push ⟨writer, rest⟩ result) := by
  refine .push (fun other member => coherent.fits other (List.mem_cons_of_mem _ member)) moves ?_
  refine coherent.disposing.keep moves.grows rests fun other member settles => ?_
  rcases List.mem_cons.mp member with rfl | later
  · rw [idle] at settles
    cases settles
  · exact List.mem_append_right _ later

theorem Coherent.call {stack : List WriterTask} (coherent : Coherent ⟨writer, stack⟩)
    {result : TransportWriter × List WriterTask} (moves : Moves writer result)
    (rests : Rests writer result.1) : Coherent (WriterMachine.push ⟨writer, stack⟩ result) :=
  .push coherent.fits moves (coherent.disposing.keep moves.grows rests
    fun _ member _ => List.mem_append_right _ member)

theorem rests_same (writer : TransportWriter) : Rests writer writer :=
  fun closed => ⟨closed, rfl, rfl⟩

theorem rests_open (isOpen : after.closed = false) : Rests before after := by
  intro closed
  rw [isOpen] at closed
  cases closed

theorem rests_setSaturated (writer : TransportWriter) (saturated : Bool) :
    Rests writer (writer.setSaturated saturated).1 := by
  unfold setSaturated
  split
  · exact rests_same writer
  · exact fun closed => ⟨closed, rfl, rfl⟩

theorem rests_pump (writer : TransportWriter) : Rests writer writer.pump.1 := by
  unfold pump
  split
  · exact rests_same writer
  · exact fun closed => ⟨closed, rfl, rfl⟩

theorem rests_pumpLoop (writer : TransportWriter) : Rests writer writer.pumpLoop.1 := by
  unfold pumpLoop
  split
  case isTrue => exact fun closed => ⟨closed, rfl, rfl⟩
  case isFalse running =>
    rw [Bool.not_eq_true, Bool.or_eq_false_iff] at running
    cases writer.scheduler.select with
    | mk taken scheduler =>
      cases taken with
      | none => exact rests_open running.1
      | some entry => exact rests_open running.1

theorem rests_enqueue (writer : TransportWriter) (bytes : ℕ) (lane : MultiplexerWriterLane) :
    Rests writer (writer.enqueue bytes lane).2.1 := by
  unfold enqueue
  split
  case isTrue => exact rests_same writer
  case isFalse opened =>
    rw [Bool.not_eq_true] at opened
    split
    · exact rests_same writer
    · cases writer.admissionError bytes lane with
      | some error => exact rests_same writer
      | none =>
        dsimp only
        split
        · exact rests_open opened
        · exact rests_open opened

theorem rests_writeReturned (transport : MultiplexerTransport) (writer : TransportWriter)
    (write : ℕ) (accepted : Option Bool) :
    Rests writer (writer.writeReturned transport write accepted).1 := by
  unfold writeReturned
  split
  · split
    · exact rests_setSaturated (writer.setReturned write) _
    · exact rests_same writer
  · exact rests_same writer

theorem rests_afterSaturation (transport : MultiplexerTransport) (writer : TransportWriter)
    (write : ℕ) : Rests writer (writer.afterSaturation transport write).1 := by
  unfold afterSaturation
  dsimp only
  split
  · exact rests_same writer
  · split
    · exact fun closed => ⟨closed, rfl, rfl⟩
    · exact rests_same writer

theorem rests_useCallbackResult (writer : TransportWriter) (write : ℕ) :
    Rests writer (writer.useCallbackResult write).1 := by
  unfold useCallbackResult
  cases (writer.writes write).callbackResult with
  | none => exact rests_same writer
  | some result => exact rests_same writer

theorem rests_handleWriteSettlement (writer : TransportWriter) (entry : ℕ)
    (result : MultiplexerWriteSettlement) :
    Rests writer (writer.handleWriteSettlement entry result).1 := by
  unfold handleWriteSettlement
  split
  · exact rests_same writer
  · exact rests_same writer

theorem rests_onWriteSettled (writer : TransportWriter) (write : ℕ)
    (result : MultiplexerTransportWriteResult) :
    Rests writer (writer.onWriteSettled write result).1 := by
  unfold onWriteSettled
  split
  · exact rests_same writer
  · exact fun closed => ⟨closed, rfl, rfl⟩

theorem rests_handleDrain (writer : TransportWriter) : Rests writer writer.handleDrain.1 := by
  unfold handleDrain
  split
  · exact rests_same writer
  · split
    · exact fun closed => ⟨closed, rfl, rfl⟩
    · split
      · exact rests_same writer
      · exact rests_setSaturated writer false

theorem disposing_dispose {stack : List WriterTask} (coherent : Coherent ⟨writer, stack⟩)
    (error : String) :
    Disposing (writer.dispose error).1 ((writer.dispose error).2 ++ stack) := by
  unfold dispose
  split
  case isTrue => exact coherent.disposing
  case isFalse opened =>
    rw [Bool.not_eq_true] at opened
    intro _ entry admitted _
    have listed : WriterTask.disposeQueued error ∈
        ((if writer.removeDrainListener then [WriterTask.outside .removeDrainListener] else []) ++
          [.disposeQueued error]) ++ stack :=
      List.mem_append_left _ (List.mem_append_right _ (List.mem_singleton_self _))
    rcases written_or_waiting (coherent.sound.kept.lanes_of_open opened) admitted with
      written | waits
    · exact .inr (.inr ⟨written, .inl ⟨error, listed⟩⟩)
    · exact .inl ⟨waits, error, listed⟩

theorem Disposing.mono (disposing : Disposing writer old)
    (stack : ∀ task ∈ old, task ∈ new) : Disposing writer new := by
  intro closed entry admitted unsettled
  rcases disposing closed entry admitted unsettled with ⟨waits, error, task⟩ | pending | written
  · exact .inl ⟨waits, error, stack _ task⟩
  · obtain ⟨result, task⟩ := pending
    exact .inr (.inl ⟨result, stack _ task⟩)
  · obtain ⟨written, ⟨error, task⟩ | ⟨error, task⟩⟩ := written
    · exact .inr (.inr ⟨written, .inl ⟨error, stack _ task⟩⟩)
    · exact .inr (.inr ⟨written, .inr ⟨error, stack _ task⟩⟩)

theorem Coherent.pop {task : WriterTask} (coherent : Coherent ⟨writer, task :: rest⟩)
    (idle : task.settles = false) : Coherent ⟨writer, rest⟩ where
  sound := coherent.sound
  fits := fun other member => coherent.fits other (List.mem_cons_of_mem _ member)
  disposing := by
    refine coherent.disposing.keep (.refl writer) (rests_same writer) fun other member settles => ?_
    rcases List.mem_cons.mp member with rfl | later
    · rw [idle] at settles
      cases settles
    · exact later

theorem Coherent.fail {error : String} (coherent : Coherent ⟨writer, .fail error :: rest⟩) :
    Coherent (WriterMachine.push ⟨writer, rest⟩ (writer.fail error)) := by
  have popped := coherent.pop rfl
  refine .push popped.fits (moves_fail coherent.sound error) ?_
  unfold TransportWriter.fail
  split
  case isTrue => exact popped.disposing
  case isFalse =>
    refine (disposing_dispose popped error).mono fun task member => ?_
    rcases List.mem_append.mp member with first | later
    · exact List.mem_append_left _ (List.mem_append_left _ first)
    · exact List.mem_append_right _ later

theorem Coherent.release {entry : ℕ} {result : MultiplexerWriteSettlement}
    (coherent : Coherent ⟨writer, .release entry result :: rest⟩) :
    Coherent (WriterMachine.push ⟨writer, rest⟩ (writer.release entry result)) := by
  have fits := coherent.fits _ List.mem_cons_self
  have moves := moves_release coherent.sound fits
  refine .push (fun other member => coherent.fits other (List.mem_cons_of_mem _ member)) moves ?_
  intro closed other admitted unsettled
  have others : ∀ task ∈ WriterTask.release entry result :: rest,
      task ≠ .release entry result → task ∈ (writer.release entry result).2 ++ rest := by
    intro task member different
    rcases List.mem_cons.mp member with same | later
    · exact absurd same different
    · exact List.mem_append_right _ later
  -- The entry itself is settled now.
  have here : other ≠ entry ∧ writer.closed = true ∧ other < writer.admitted ∧
      (writer.entries other).settled = false ∧
      (writer.release entry result).1.scheduler = writer.scheduler := by
    cases settled : (writer.entries entry).settled with
    | true =>
      rw [release_settled settled] at closed admitted unsettled ⊢
      refine ⟨?_, closed, admitted, unsettled, rfl⟩
      rintro rfl
      rw [settled] at unsettled
      cases unsettled
    | false =>
      rw [release_unsettled coherent.sound.kept fits.1 settled] at closed admitted unsettled ⊢
      have different : other ≠ entry := by
        rintro rfl
        rw [entries_settle] at unsettled
        cases unsettled
      rw [entries_settle_of_ne different] at unsettled
      exact ⟨different, closed, admitted, unsettled, rfl⟩
  obtain ⟨different, was, old, held, queues⟩ := here
  rcases coherent.disposing was other old held with ⟨⟨lane, waits⟩, error, task⟩ | pending | written
  · refine .inl ⟨⟨lane, ?_⟩, error, others _ task (by simp)⟩
    rw [queues]
    exact waits
  · obtain ⟨result', task⟩ := pending
    refine .inr (.inl ⟨result', others _ task ?_⟩)
    intro same
    cases same
    exact different rfl
  · obtain ⟨written, ⟨error, task⟩ | ⟨error, task⟩⟩ := written
    · exact .inr (.inr ⟨moves.grows.written written, .inl ⟨error, others _ task (by simp)⟩⟩)
    · exact .inr (.inr ⟨moves.grows.written written, .inr ⟨error, others _ task (by simp)⟩⟩)

theorem Coherent.disposeQueued {error : String}
    (coherent : Coherent ⟨writer, .disposeQueued error :: rest⟩) :
    Coherent (WriterMachine.push ⟨writer, rest⟩ (writer.disposeQueued error)) := by
  have closed := coherent.fits _ List.mem_cons_self
  have moves := moves_disposeQueued coherent.sound closed error
  refine .push (fun other member => coherent.fits other (List.mem_cons_of_mem _ member)) moves ?_
  intro _ entry admitted unsettled
  have flying : WriterTask.disposeInFlight error ∈ (writer.disposeQueued error).2 ++ rest :=
    List.mem_append_left _ (List.mem_append_right _ (List.mem_singleton_self _))
  rcases coherent.disposing closed entry admitted unsettled with ⟨waits, _, _⟩ | pending | written
  · refine .inr (.inl ⟨.refused .transportRejectedBeforeHandoff error,
      List.mem_append_left _ (List.mem_append_left _ ?_)⟩)
    exact List.mem_map.mpr ⟨entry, WriterLaneScheduler.mem_clear.mpr waits, rfl⟩
  · obtain ⟨result, task⟩ := pending
    refine .inr (.inl ⟨result, ?_⟩)
    rcases List.mem_cons.mp task with same | later
    · cases same
    · exact List.mem_append_right _ later
  · exact .inr (.inr ⟨moves.grows.written written.1, .inr ⟨error, flying⟩⟩)

theorem Coherent.disposeInFlight {error : String}
    (coherent : Coherent ⟨writer, .disposeInFlight error :: rest⟩) :
    Coherent (WriterMachine.push ⟨writer, rest⟩ (writer.disposeInFlight error)) := by
  have closed := coherent.fits _ List.mem_cons_self
  have moves := moves_disposeInFlight coherent.sound error
  refine .push (fun other member => coherent.fits other (List.mem_cons_of_mem _ member)) moves ?_
  intro _ entry admitted unsettled
  rcases coherent.disposing closed entry admitted unsettled with ⟨waits, error', task⟩ | pending |
    written
  · refine .inl ⟨waits, error', ?_⟩
    rcases List.mem_cons.mp task with same | later
    · cases same
    · exact List.mem_append_right _ later
  · obtain ⟨result, task⟩ := pending
    refine .inr (.inl ⟨result, ?_⟩)
    rcases List.mem_cons.mp task with same | later
    · cases same
    · exact List.mem_append_right _ later
  · have flies : entry ∈ writer.inFlight :=
      (coherent.sound.kept.inFlight entry).mpr ⟨admitted, unsettled, written.1⟩
    refine .inr (.inl ⟨.refused .transportRejectedBeforeHandoff error,
      List.mem_append_left _ (List.mem_append_left _ ?_)⟩)
    exact List.mem_map.mpr ⟨entry, flies, rfl⟩

end Disposal

section Run

variable {transport : MultiplexerTransport}

def WriterStep (transport : MultiplexerTransport) (before : WriterMachine) (input : WriterInput)
    (after : WriterMachine) : Prop := before.step transport input = some after

/-- What an input makes of the top of the stack: what is popped, and what is done instead. -/
inductive WriterPiece (transport : MultiplexerTransport) (writer : TransportWriter) :
    WriterInput → List WriterTask → TransportWriter × List WriterTask → Prop
  | enqueue (bytes : ℕ) (lane : MultiplexerWriterLane) :
      WriterPiece transport writer (.enqueue bytes lane) [] (writer.enqueue bytes lane).2
  | drain : WriterPiece transport writer .drain [] writer.handleDrain
  | dispose (error : String) :
      WriterPiece transport writer (.dispose error) [] (writer.dispose error)
  | settlement (write : ℕ) (result : MultiplexerTransportWriteResult) :
      write < writer.started →
        WriterPiece transport writer (.settlement write result) []
          (writer.onWriteSettled write result)
  | writeReturned (write : ℕ) (accepted : Option Bool) :
      WriterPiece transport writer (.writeReturned accepted) [.outside (.write write)]
        (writer.writeReturned transport write accepted)
  | writeThrew (write : ℕ) (error : String) :
      WriterPiece transport writer (.writeThrew error) [.outside (.write write)]
        (writer.writeThrew write error)
  | callReturned (call : OutsideCall) :
      (∀ write, call ≠ .write write) →
        WriterPiece transport writer .callReturned [.outside call] (writer, [])
  | next (task : WriterTask) (result : TransportWriter × List WriterTask) :
      writer.perform transport task = some result →
        WriterPiece transport writer .next [task] result

theorem WriterStep.piece {before after : WriterMachine} {input : WriterInput}
    (step : WriterStep transport before input after) :
    ∃ popped rest result, before = ⟨before.writer, popped ++ rest⟩ ∧
      after = ⟨result.1, result.2 ++ rest⟩ ∧
      WriterPiece transport before.writer input popped result := by
  obtain ⟨writer, stack⟩ := before
  unfold WriterStep at step
  cases input with
  | enqueue bytes lane =>
    rw [WriterMachine.step, Option.ite_none_right_eq_some] at step
    exact ⟨[], stack, _, rfl, (Option.some.inj step.2).symm, .enqueue bytes lane⟩
  | drain =>
    rw [WriterMachine.step, Option.ite_none_right_eq_some] at step
    exact ⟨[], stack, _, rfl, (Option.some.inj step.2).symm, .drain⟩
  | dispose error =>
    rw [WriterMachine.step, Option.ite_none_right_eq_some] at step
    exact ⟨[], stack, _, rfl, (Option.some.inj step.2).symm, .dispose error⟩
  | settlement write result =>
    rw [WriterMachine.step, Option.ite_none_right_eq_some, Bool.and_eq_true,
      decide_eq_true_eq] at step
    exact ⟨[], stack, _, rfl, (Option.some.inj step.2).symm, .settlement write result step.1.2⟩
  | writeReturned accepted =>
    unfold WriterMachine.step at step
    dsimp only at step
    split at step
    case h_1 write rest =>
      exact ⟨_, rest, _, rfl, (Option.some.inj step).symm, .writeReturned write accepted⟩
    case h_2 => cases step
  | writeThrew error =>
    unfold WriterMachine.step at step
    dsimp only at step
    split at step
    case h_1 write rest =>
      exact ⟨_, rest, _, rfl, (Option.some.inj step).symm, .writeThrew write error⟩
    case h_2 => cases step
  | callReturned =>
    unfold WriterMachine.step at step
    dsimp only at step
    split at step
    · cases step
    case h_2 call rest other =>
      refine ⟨[.outside call], rest, (writer, []), rfl, (Option.some.inj step).symm,
        .callReturned call fun write same => ?_⟩
      subst same
      exact other write rfl
    · cases step
  | next =>
    unfold WriterMachine.step at step
    dsimp only at step
    split at step
    · cases step
    case h_2 task rest =>
      obtain ⟨result, performed, same⟩ := Option.map_eq_some_iff.mp step
      exact ⟨[task], rest, result, rfl, same.symm, .next task result performed⟩

theorem coherent_start (transport : MultiplexerTransport) : Coherent (.start transport) where
  sound := ⟨kept_start transport, fun _ _ given => by cases given⟩
  fits := fun _ member => by cases member
  disposing := fun closed => by cases closed

theorem moves_perform {writer : TransportWriter} {task : WriterTask} (sound : Sound writer)
    (fits : task.Fits writer) {result : TransportWriter × List WriterTask}
    (performed : writer.perform transport task = some result) : Moves writer result := by
  cases task with
  | outside call => cases performed
  | pump =>
    cases performed
    exact moves_pump sound
  | pumpLoop =>
    cases performed
    exact moves_pumpLoop sound
  | afterSaturation write =>
    cases performed
    exact moves_afterSaturation transport sound fits
  | useCallbackResult write =>
    cases performed
    exact moves_useCallbackResult sound fits
  | handleWriteSettlement entry settlement =>
    cases performed
    exact moves_handleWriteSettlement sound fits
  | release entry settlement =>
    cases performed
    exact moves_release sound fits
  | fail error =>
    cases performed
    exact moves_fail sound error
  | disposeQueued error =>
    cases performed
    exact moves_disposeQueued sound fits error
  | disposeInFlight error =>
    cases performed
    exact moves_disposeInFlight sound error
  | settleDrained =>
    cases performed
    exact moves_settleDrained sound
  | clearSettleOnDrain =>
    cases performed
    exact moves_clearSettleOnDrain sound

theorem WriterPiece.moves {writer : TransportWriter} {input : WriterInput}
    {popped : List WriterTask} {result : TransportWriter × List WriterTask}
    (piece : WriterPiece transport writer input popped result) (sound : Sound writer)
    (fits : ∀ task ∈ popped, task.Fits writer) : Moves writer result := by
  cases piece with
  | enqueue bytes lane => exact moves_enqueue sound bytes lane
  | drain => exact moves_handleDrain sound
  | dispose error => exact moves_dispose sound error
  | settlement write result early => exact moves_onWriteSettled sound early result
  | writeReturned write accepted =>
    exact moves_writeReturned transport sound (fits _ List.mem_cons_self) accepted
  | writeThrew write error => exact moves_writeThrew sound (fits _ List.mem_cons_self) error
  | callReturned call other => exact moves_nothing sound (fits_nil writer)
  | next task result performed => exact moves_perform sound (fits _ List.mem_cons_self) performed

theorem Coherent.perform {writer : TransportWriter} {task : WriterTask} {rest : List WriterTask}
    (coherent : Coherent ⟨writer, task :: rest⟩)
    {result : TransportWriter × List WriterTask}
    (performed : writer.perform transport task = some result) :
    Coherent (WriterMachine.push ⟨writer, rest⟩ result) := by
  have moves := moves_perform coherent.sound (coherent.fits _ List.mem_cons_self) performed
  cases task with
  | outside call => cases performed
  | pump =>
    cases performed
    exact coherent.pushResting rfl moves (rests_pump writer)
  | pumpLoop =>
    cases performed
    exact coherent.pushResting rfl moves (rests_pumpLoop writer)
  | afterSaturation write =>
    cases performed
    exact coherent.pushResting rfl moves (rests_afterSaturation transport writer write)
  | useCallbackResult write =>
    cases performed
    exact coherent.pushResting rfl moves (rests_useCallbackResult writer write)
  | handleWriteSettlement entry settlement =>
    cases performed
    exact coherent.pushResting rfl moves (rests_handleWriteSettlement writer entry settlement)
  | release entry settlement =>
    cases performed
    exact coherent.release
  | fail error =>
    cases performed
    exact coherent.fail
  | disposeQueued error =>
    cases performed
    exact coherent.disposeQueued
  | disposeInFlight error =>
    cases performed
    exact coherent.disposeInFlight
  | settleDrained =>
    cases performed
    exact coherent.pushResting rfl moves (rests_same writer)
  | clearSettleOnDrain =>
    cases performed
    exact coherent.pushResting rfl moves fun closed => ⟨closed, rfl, rfl⟩

theorem Coherent.step {before after : WriterMachine} {input : WriterInput}
    (coherent : Coherent before) (step : WriterStep transport before input after) :
    Coherent after := by
  obtain ⟨popped, rest, result, shape, rfl, piece⟩ := step.piece
  obtain ⟨writer, stack⟩ := before
  rw [shape] at coherent
  have moves := piece.moves coherent.sound fun task member =>
    coherent.fits task (List.mem_append_left _ member)
  cases piece with
  | enqueue bytes lane => exact coherent.call moves (rests_enqueue writer bytes lane)
  | drain => exact coherent.call moves (rests_handleDrain writer)
  | dispose error => exact .push coherent.fits moves (disposing_dispose coherent error)
  | settlement write result => exact coherent.call moves (rests_onWriteSettled writer write result)
  | writeReturned write accepted =>
    exact coherent.pushResting rfl moves (rests_writeReturned transport writer write accepted)
  | writeThrew write error => exact coherent.pushResting rfl moves (rests_same writer)
  | callReturned call other => exact coherent.pop rfl
  | next task result performed => exact coherent.perform performed

theorem Coherent.grows {before after : WriterMachine} {input : WriterInput}
    (coherent : Coherent before) (step : WriterStep transport before input after) :
    Grows before.writer after.writer := by
  obtain ⟨popped, rest, result, shape, rfl, piece⟩ := step.piece
  rw [shape] at coherent
  exact (piece.moves coherent.sound fun task member =>
    coherent.fits task (List.mem_append_left _ member)).grows

theorem coherent_run {inputs : List WriterInput} {machine : WriterMachine}
    (run : Run (WriterStep transport) (.start transport) inputs machine) : Coherent machine :=
  run.preserves (fun _ _ _ coherent step => coherent.step step) (coherent_start transport)

end Run

end OxeeUI.Ssh
