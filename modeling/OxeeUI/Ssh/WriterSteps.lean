import OxeeUI.Ssh.RetainedEntries

/-!
# The steps of a writer

What one piece of the writer does between two calls outside: it keeps what holds
of the entries, takes nothing back that was written or settled, and leaves only
tasks that fit.  Once the writer is closed, whatever is not settled is still on
the list of what disposing has left to do.
-/

namespace OxeeUI.Ssh

open TransportWriter

/-- Nothing written, returned, settled or closed is taken back. -/
structure Grows (before after : TransportWriter) : Prop where
  started : before.started ≤ after.started
  writes : ∀ write < before.started, (after.writes write).entry = (before.writes write).entry
  returned : ∀ write < before.started, (before.writes write).returned = true →
    (after.writes write).returned = true
  admitted : before.admitted ≤ after.admitted
  lane : ∀ entry < before.admitted, (after.entries entry).lane = (before.entries entry).lane
  settled : ∀ entry < before.admitted, (before.entries entry).settled = true →
    (after.entries entry).settled = true
  waiting : ∀ entry < before.admitted, after.Waiting entry → before.Waiting entry
  closed : before.closed = true → after.closed = true

namespace Grows

variable {first second third : TransportWriter}

theorem refl (writer : TransportWriter) : Grows writer writer :=
  ⟨le_refl _, fun _ _ => rfl, fun _ _ => id, le_refl _, fun _ _ => rfl, fun _ _ => id,
    fun _ _ => id, id⟩

theorem written (grows : Grows first second) {entry : ℕ} (written : first.Written entry) :
    second.Written entry := by
  obtain ⟨write, early, rfl⟩ := written
  exact ⟨write, lt_of_lt_of_le early grows.started, grows.writes write early⟩

theorem trans (early : Grows first second) (late : Grows second third) : Grows first third where
  started := early.started.trans late.started
  writes := fun write old =>
    (late.writes write (lt_of_lt_of_le old early.started)).trans (early.writes write old)
  returned := fun write old returned =>
    late.returned write (lt_of_lt_of_le old early.started) (early.returned write old returned)
  admitted := early.admitted.trans late.admitted
  lane := fun entry old =>
    (late.lane entry (lt_of_lt_of_le old early.admitted)).trans (early.lane entry old)
  settled := fun entry old settled =>
    late.settled entry (lt_of_lt_of_le old early.admitted) (early.settled entry old settled)
  waiting := fun entry old waits =>
    early.waiting entry old (late.waiting entry (lt_of_lt_of_le old early.admitted) waits)
  closed := fun closed => late.closed (early.closed closed)

end Grows

def WriterTask.Fits (writer : TransportWriter) : WriterTask → Prop
  | .outside (.write write) => write < writer.started
  | .afterSaturation write => write < writer.started ∧ (writer.writes write).returned = true
  | .useCallbackResult write => write < writer.started ∧ (writer.writes write).returned = true
  | .handleWriteSettlement entry result => writer.Written entry ∧ result.Plain
  | .release entry result => entry < writer.admitted ∧ result.Plain ∧
      (result = .accepted → writer.Written entry) ∧ ¬ writer.Waiting entry
  | .disposeQueued _ => writer.closed = true
  | .disposeInFlight _ => writer.closed = true
  | _ => True

theorem WriterTask.Fits.grow {before after : TransportWriter} (grows : Grows before after)
    {task : WriterTask} (fits : task.Fits before) : task.Fits after := by
  cases task with
  | outside call =>
    cases call with
    | write write => exact lt_of_lt_of_le fits grows.started
    | settled entry result => trivial
    | turnedAway result => trivial
    | saturationChange saturated => trivial
    | failure error => trivial
    | removeDrainListener => trivial
  | afterSaturation write =>
    exact ⟨lt_of_lt_of_le fits.1 grows.started, grows.returned write fits.1 fits.2⟩
  | useCallbackResult write =>
    exact ⟨lt_of_lt_of_le fits.1 grows.started, grows.returned write fits.1 fits.2⟩
  | handleWriteSettlement entry result => exact ⟨grows.written fits.1, fits.2⟩
  | release entry result =>
    obtain ⟨admitted, plain, accepted, idle⟩ := fits
    exact ⟨lt_of_lt_of_le admitted grows.admitted, plain, fun same => grows.written (accepted same),
      fun waits => idle (grows.waiting entry admitted waits)⟩
  | pump => trivial
  | pumpLoop => trivial
  | fail error => trivial
  | disposeQueued error => exact grows.closed fits
  | disposeInFlight error => exact grows.closed fits
  | settleDrained => trivial
  | clearSettleOnDrain => trivial

structure Sound (writer : TransportWriter) : Prop where
  kept : Kept writer
  results : ∀ write result, (writer.writes write).callbackResult = some result → result.Plain

structure Moves (before : TransportWriter) (result : TransportWriter × List WriterTask) :
    Prop where
  sound : Sound result.1
  grows : Grows before result.1
  fits : ∀ task ∈ result.2, task.Fits result.1

section Pieces

variable {writer after : TransportWriter} {tasks : List WriterTask}

theorem SameEntries.grows (same : SameEntries writer after)
    (returned : ∀ write, (writer.writes write).returned = true →
      (after.writes write).returned = true) : Grows writer after where
  started := le_of_eq same.started.symm
  writes := fun write _ => same.writes write
  returned := fun write _ => returned write
  admitted := le_of_eq same.admitted.symm
  lane := fun entry _ => by rw [same.entries]
  settled := fun entry _ => by rw [same.entries]; exact id
  waiting := by
    rintro entry _ ⟨lane, waits⟩
    rw [same.waiting] at waits
    exact ⟨lane, waits⟩
  closed := same.closed

theorem moves_of_same (sound : Sound writer) (same : SameEntries writer after)
    (writes : after.writes = writer.writes) (fits : ∀ task ∈ tasks, task.Fits after) :
    Moves writer (after, tasks) := by
  refine ⟨⟨sound.kept.congr same, ?_⟩, same.grows ?_, fits⟩
  · rw [writes]
    exact sound.results
  · rw [writes]
    exact fun _ => id

theorem moves_nothing (sound : Sound writer) (fits : ∀ task ∈ tasks, task.Fits writer) :
    Moves writer (writer, tasks) :=
  moves_of_same sound (.refl _) rfl fits

theorem fits_nil (writer : TransportWriter) : ∀ task ∈ ([] : List WriterTask), task.Fits writer :=
  fun _ member => by cases member

theorem fits_cons {task : WriterTask} (first : task.Fits writer)
    (rest : ∀ other ∈ tasks, other.Fits writer) : ∀ other ∈ task :: tasks, other.Fits writer := by
  intro other member
  rcases List.mem_cons.mp member with rfl | later
  · exact first
  · exact rest other later

theorem fits_append {more : List WriterTask} (early : ∀ task ∈ tasks, task.Fits writer)
    (late : ∀ task ∈ more, task.Fits writer) : ∀ task ∈ tasks ++ more, task.Fits writer := by
  intro task member
  rcases List.mem_append.mp member with first | second
  · exact early task first
  · exact late task second

theorem Moves.append (moves : Moves writer (after, tasks)) {more : List WriterTask}
    (fits : ∀ task ∈ more, task.Fits after) : Moves writer (after, tasks ++ more) :=
  ⟨moves.sound, moves.grows, fits_append moves.fits fits⟩

theorem Kept.idle (kept : Kept writer) {entry : ℕ} (written : writer.Written entry) :
    ¬ writer.Waiting entry := by
  rintro ⟨lane, waits⟩
  exact (of_waiting (kept.lanes_of_waiting waits) waits).2.2 written

theorem Kept.admitted_of_written (kept : Kept writer) {entry : ℕ}
    (written : writer.Written entry) : entry < writer.admitted := by
  obtain ⟨write, early, rfl⟩ := written
  exact kept.writes write early

theorem fits_release (kept : Kept writer) {entry : ℕ} {result : MultiplexerWriteSettlement}
    (written : writer.Written entry) (plain : result.Plain) :
    (WriterTask.release entry result).Fits writer :=
  ⟨kept.admitted_of_written written, plain, fun _ => written, kept.idle written⟩

theorem moves_setSaturated (sound : Sound writer) (saturated : Bool) :
    Moves writer (writer.setSaturated saturated) := by
  unfold setSaturated
  split
  · exact moves_nothing sound (fits_nil _)
  · exact moves_of_same sound
      ⟨rfl, rfl, fun _ => rfl, rfl, fun _ => rfl, rfl, fun _ => .inl, rfl, rfl, rfl, rfl, rfl, id⟩
      rfl (fits_cons trivial (fits_nil _))

theorem moves_pump (sound : Sound writer) : Moves writer writer.pump := by
  unfold pump
  split
  · exact moves_nothing sound (fits_nil _)
  · exact moves_of_same sound
      ⟨rfl, rfl, fun _ => rfl, rfl, fun _ => rfl, rfl, fun _ => .inl, rfl, rfl, rfl, rfl, rfl, id⟩
      rfl (fits_cons trivial (fits_nil _))

theorem moves_startWrite (sound : Sound writer) (isOpen : writer.closed = false) {entry : ℕ}
    {lane : MultiplexerWriterLane} {scheduler : WriterLaneScheduler ℕ}
    (first : writer.scheduler.waiting lane = entry :: scheduler.waiting lane)
    (others : ∀ other, other ≠ lane →
      scheduler.waiting other = writer.scheduler.waiting other) :
    Moves writer (startWrite { writer with scheduler } entry) := by
  refine ⟨⟨sound.kept.startWrite isOpen first others, ?_⟩, ?_, ?_⟩
  · intro write result given
    by_cases here : write = writer.started
    · subst here
      have new := congrArg TransportWrite.callbackResult (writes_startWrite_new writer entry)
      have none := new.symm.trans given
      cases none
    · have old : (startWrite { writer with scheduler } entry).1.writes write =
          writer.writes write := Function.update_of_ne here _ _
      rw [old] at given
      exact sound.results write result given
  · constructor
    case started => exact Nat.le_succ _
    case writes =>
      intro write early
      exact congrArg TransportWrite.entry (writes_startWrite writer entry early)
    case returned =>
      intro write early returned
      exact (congrArg TransportWrite.returned (writes_startWrite writer entry early)).trans returned
    case admitted => exact le_refl _
    case lane => exact fun _ _ => rfl
    case settled => exact fun _ _ => id
    case waiting =>
      rintro other _ ⟨place, waits⟩
      by_cases here : place = lane
      · subst here
        refine ⟨place, ?_⟩
        rw [first]
        exact List.mem_cons_of_mem _ waits
      · refine ⟨place, ?_⟩
        rw [← others place here]
        exact waits
    case closed => exact id
  · exact fits_cons (Nat.lt_succ_self _) (fits_nil _)

theorem moves_pumpLoop (sound : Sound writer) : Moves writer writer.pumpLoop := by
  have flags : ∀ scheduler : WriterLaneScheduler ℕ,
      (∀ lane, scheduler.waiting lane = writer.scheduler.waiting lane) →
      Moves writer ({ writer with scheduler, pumping := false }, []) := fun scheduler same =>
    moves_of_same sound
      ⟨rfl, rfl, fun _ => rfl, rfl, same, rfl, fun _ => .inl, rfl, rfl, rfl, rfl, rfl, id⟩
      rfl (fits_nil _)
  unfold pumpLoop
  split
  case isTrue => exact flags writer.scheduler fun _ => rfl
  case isFalse running =>
    rw [Bool.not_eq_true, Bool.or_eq_false_iff] at running
    obtain ⟨⟨lane, takes⟩, empty⟩ := writer.scheduler.select_spec
    cases chosen : writer.scheduler.select with
    | mk taken scheduler =>
      rw [chosen] at takes empty
      cases taken with
      | none =>
        have none := empty rfl
        refine flags scheduler fun other => ?_
        by_cases here : other = lane
        · rw [here]
          exact takes.taken.symm
        · exact takes.others other here
      | some entry =>
        have moves := moves_startWrite sound running.1 takes.taken takes.others
        exact moves.append (fits_cons trivial (fits_nil _))

theorem moves_enqueue (sound : Sound writer) (bytes : ℕ) (lane : MultiplexerWriterLane) :
    Moves writer (writer.enqueue bytes lane).2 := by
  unfold enqueue
  split
  case isTrue => exact moves_nothing sound (fits_cons trivial (fits_nil _))
  case isFalse opened =>
    rw [Bool.not_eq_true] at opened
    split
    case isTrue => exact moves_nothing sound (fits_nil _)
    case isFalse allowed =>
      have quiet : lane = .liveness → writer.livenessOutstanding = false := by
        intro same
        rw [not_and, Bool.not_eq_true] at allowed
        exact allowed same
      cases writer.admissionError bytes lane with
      | some error => exact moves_nothing sound (fits_cons trivial (fits_cons trivial (fits_nil _)))
      | none =>
        have kept := sound.kept.admit bytes opened quiet
        have queued : Sound { writer.retain bytes lane with
            scheduler := writer.scheduler.enqueue writer.admitted lane } :=
          ⟨kept, sound.results⟩
        have grows : Grows writer { writer.retain bytes lane with
            scheduler := writer.scheduler.enqueue writer.admitted lane } := by
          constructor
          case started => exact le_refl _
          case writes => exact fun _ _ => rfl
          case returned => exact fun _ _ => id
          case admitted => exact Nat.le_succ _
          case lane =>
            intro entry old
            exact congrArg WriterEntry.lane (entries_retain writer bytes lane old)
          case settled =>
            intro entry old settled
            exact (congrArg WriterEntry.settled (entries_retain writer bytes lane old)).trans
              settled
          case waiting =>
            rintro entry old ⟨place, waits⟩
            rw [WriterLaneScheduler.waiting_enqueue, List.mem_append] at waits
            rcases waits with before | new
            · exact ⟨place, before⟩
            · split at new
              · rw [List.mem_singleton.mp new] at old
                exact absurd old (lt_irrefl _)
              · cases new
          case closed => exact id
        dsimp only
        split
        case isTrue direct =>
          have none : writer.scheduler.waiting .liveness = [] := by
            rw [List.eq_nil_iff_forall_not_mem]
            intro entry waits
            have placed := of_waiting (sound.kept.lanes_of_waiting waits) waits
            have outstanding := sound.kept.outstanding entry placed.1 placed.2.1
              (sound.kept.waiting entry ⟨_, waits⟩)
            rw [quiet direct.1] at outstanding
            cases outstanding
          have first : (writer.scheduler.enqueue writer.admitted lane).waiting lane =
              writer.admitted :: writer.scheduler.waiting lane := by
            rw [WriterLaneScheduler.waiting_enqueue, if_pos rfl, direct.1, none]
            rfl
          have others : ∀ other, other ≠ lane → writer.scheduler.waiting other =
              (writer.scheduler.enqueue writer.admitted lane).waiting other := by
            intro other different
            rw [WriterLaneScheduler.waiting_enqueue, if_neg different, List.append_nil]
          have moves := moves_startWrite queued opened first others
          refine ⟨moves.sound, ?_, moves.fits⟩
          exact grows.trans moves.grows
        case isFalse => exact ⟨queued, grows, fits_cons trivial (fits_nil _)⟩

theorem moves_release (sound : Sound writer) {entry : ℕ} {result : MultiplexerWriteSettlement}
    (fits : (WriterTask.release entry result).Fits writer) :
    Moves writer (writer.release entry result) := by
  obtain ⟨admitted, plain, accepted, idle⟩ := fits
  cases settled : (writer.entries entry).settled with
  | true =>
    rw [release_settled settled]
    exact moves_nothing sound (fits_nil _)
  | false =>
    rw [release_unsettled sound.kept admitted settled]
    refine ⟨⟨sound.kept.settle admitted settled plain accepted idle, sound.results⟩, ?_,
      fits_cons trivial (fits_nil _)⟩
    constructor
    case started => exact le_refl _
    case writes => exact fun _ _ => rfl
    case returned => exact fun _ _ => id
    case admitted => exact le_refl _
    case lane => exact fun other _ => lane_settle other
    case settled =>
      intro other _ before
      by_cases here : other = entry
      · rw [here, entries_settle]
      · rw [entries_settle_of_ne here]
        exact before
    case waiting => exact fun _ _ => id
    case closed => exact id

theorem moves_dispose (sound : Sound writer) (error : String) :
    Moves writer (writer.dispose error) := by
  unfold dispose
  split
  · exact moves_nothing sound (fits_nil _)
  · refine moves_of_same sound
      ⟨rfl, rfl, fun _ => rfl, rfl, fun _ => rfl, rfl, fun _ => .inl, rfl, rfl, rfl, rfl, rfl,
        fun _ => rfl⟩ rfl (fits_append ?_ (fits_cons rfl (fits_nil _)))
    split
    · exact fits_cons trivial (fits_nil _)
    · exact fits_nil _

theorem moves_fail (sound : Sound writer) (error : String) :
    Moves writer (writer.fail error) := by
  unfold fail
  split
  · exact moves_nothing sound (fits_nil _)
  · exact (moves_dispose sound error).append (fits_cons trivial (fits_nil _))

theorem moves_disposeQueued (sound : Sound writer) (closed : writer.closed = true)
    (error : String) : Moves writer (writer.disposeQueued error) := by
  refine ⟨⟨sound.kept.clear closed false, sound.results⟩, ?_, ?_⟩
  · constructor
    case started => exact le_refl _
    case writes => exact fun _ _ => rfl
    case returned => exact fun _ _ => id
    case admitted => exact le_refl _
    case lane => exact fun _ _ => rfl
    case settled => exact fun _ _ => id
    case waiting =>
      rintro entry _ ⟨lane, waits⟩
      cases waits
    case closed => exact id
  · refine fits_append ?_ (fits_cons closed (fits_nil _))
    intro task member
    obtain ⟨entry, queued, rfl⟩ := List.mem_map.mp member
    obtain ⟨lane, waits⟩ := WriterLaneScheduler.mem_clear.mp queued
    have placed := of_waiting (sound.kept.lanes_of_waiting waits) waits
    refine ⟨placed.1, trivial, fun same => (by cases same), ?_⟩
    rintro ⟨other, still⟩
    cases still

theorem moves_disposeInFlight (sound : Sound writer) (error : String) :
    Moves writer (writer.disposeInFlight error) := by
  refine moves_nothing sound (fits_append ?_ (fits_cons trivial (fits_nil _)))
  intro task member
  obtain ⟨entry, flying, rfl⟩ := List.mem_map.mp member
  exact fits_release sound.kept ((sound.kept.inFlight entry).mp flying).2.2 trivial

theorem moves_handleWriteSettlement (sound : Sound writer) {entry : ℕ}
    {result : MultiplexerWriteSettlement}
    (fits : (WriterTask.handleWriteSettlement entry result).Fits writer) :
    Moves writer (writer.handleWriteSettlement entry result) := by
  unfold handleWriteSettlement
  split
  · exact moves_nothing sound (fits_nil _)
  · refine moves_nothing sound (fits_cons (fits_release sound.kept fits.1 fits.2)
      (fits_cons ?_ (fits_nil _)))
    cases result with
    | accepted => trivial
    | refused reason error => trivial
    | unverifiable reason error => trivial

theorem moves_setReturned (sound : Sound writer) (write : ℕ) :
    Moves writer (writer.setReturned write, []) := by
  have same : SameEntries writer (writer.setReturned write) := by
    refine ⟨rfl, rfl, fun other => ?_, rfl, fun _ => rfl, rfl, fun _ => .inl, rfl, rfl, rfl, rfl,
      rfl, id⟩
    unfold setReturned
    by_cases here : other = write
    · simp [here]
    · simp [here]
  refine ⟨⟨sound.kept.congr same, ?_⟩, same.grows ?_, fits_nil _⟩
  · intro other result given
    unfold setReturned at given
    by_cases here : other = write
    · subst here
      dsimp only at given
      rw [Function.update_self] at given
      exact sound.results other result given
    · dsimp only at given
      rw [Function.update_of_ne here] at given
      exact sound.results other result given
  · intro other returned
    unfold setReturned
    by_cases here : other = write
    · simp [here]
    · simpa [here] using returned

theorem returned_setReturned (writer : TransportWriter) (write : ℕ) :
    ((writer.setReturned write).writes write).returned = true := by
  unfold setReturned
  dsimp only
  rw [Function.update_self]

theorem Moves.trans {middle : TransportWriter} {first : List WriterTask}
    (early : Moves writer (middle, first)) (late : Moves middle (after, tasks)) :
    Moves writer (after, tasks) :=
  ⟨late.sound, early.grows.trans late.grows, late.fits⟩

theorem moves_writeThrew (sound : Sound writer) {write : ℕ} (early : write < writer.started)
    (error : String) : Moves writer (writer.writeThrew write error) :=
  (moves_setReturned sound write).append
    (fits_cons ⟨early, returned_setReturned writer write⟩ (fits_cons trivial (fits_nil _)))

theorem moves_writeReturned (transport : MultiplexerTransport) (sound : Sound writer) {write : ℕ}
    (early : write < writer.started) (accepted : Option Bool) :
    Moves writer (writer.writeReturned transport write accepted) := by
  have returned := moves_setReturned sound write
  unfold writeReturned
  split
  · split
    · have saturates := moves_setSaturated returned.sound (!writer.drainObservedDuringWrite)
      refine Moves.append (returned.trans saturates) (fits_cons ?_ (fits_nil _))
      have ends : (WriterTask.afterSaturation write).Fits (writer.setReturned write) :=
        ⟨early, returned_setReturned writer write⟩
      exact ends.grow saturates.grows
    · exact moves_writeThrew sound early _
  · refine Moves.append returned (fits_append ?_
      (fits_cons ⟨early, returned_setReturned writer write⟩ (fits_nil _)))
    split
    · exact fits_nil _
    · refine fits_cons ⟨?_, trivial⟩ (fits_nil _)
      exact returned.grows.written ⟨write, early, rfl⟩

theorem moves_afterSaturation (transport : MultiplexerTransport) (sound : Sound writer)
    {write : ℕ} (fits : (WriterTask.afterSaturation write).Fits writer) :
    Moves writer (writer.afterSaturation transport write) := by
  have written : writer.Written (writer.writes write).entry := ⟨write, fits.1, rfl⟩
  unfold afterSaturation
  dsimp only
  split
  · exact moves_nothing sound (fits_cons fits (fits_nil _))
  · split
    · refine moves_of_same sound
        ⟨rfl, rfl, fun _ => rfl, rfl, fun _ => rfl, rfl, fun entry member => ?_, rfl, rfl, rfl,
          rfl, rfl, id⟩ rfl (fits_cons fits (fits_nil _))
      rcases mem_addMember.mp member with before | rfl
      · exact .inl before
      · exact .inr written
    · exact moves_nothing sound (fits_cons ⟨written, trivial⟩ (fits_cons fits (fits_nil _)))

theorem moves_useCallbackResult (sound : Sound writer) {write : ℕ}
    (fits : (WriterTask.useCallbackResult write).Fits writer) :
    Moves writer (writer.useCallbackResult write) := by
  unfold useCallbackResult
  cases given : (writer.writes write).callbackResult with
  | none => exact moves_nothing sound (fits_nil _)
  | some result =>
    exact moves_nothing sound
      (fits_cons ⟨⟨write, fits.1, rfl⟩, sound.results write result given⟩ (fits_nil _))

theorem moves_onWriteSettled (sound : Sound writer) {write : ℕ} (early : write < writer.started)
    (result : MultiplexerTransportWriteResult) :
    Moves writer (writer.onWriteSettled write result) := by
  have plain : result.settlement.Plain := by
    cases result with
    | ok => trivial
    | error error => trivial
  unfold onWriteSettled
  dsimp only
  split
  · exact moves_nothing sound (fits_cons ⟨⟨write, early, rfl⟩, plain⟩ (fits_nil _))
  · refine ⟨⟨sound.kept.congr ?_, ?_⟩, SameEntries.grows ?_ ?_, fits_nil _⟩
    · refine ⟨rfl, rfl, fun other => ?_, rfl, fun _ => rfl, rfl, fun _ => .inl, rfl, rfl, rfl, rfl,
        rfl, id⟩
      by_cases here : other = write
      · simp [here]
      · simp [here]
    · intro other stored given
      dsimp only at given
      by_cases here : other = write
      · subst here
        rw [Function.update_self] at given
        rw [← Option.some.inj given]
        exact plain
      · rw [Function.update_of_ne here] at given
        exact sound.results other stored given
    · refine ⟨rfl, rfl, fun other => ?_, rfl, fun _ => rfl, rfl, fun _ => .inl, rfl, rfl, rfl, rfl,
        rfl, id⟩
      by_cases here : other = write
      · simp [here]
      · simp [here]
    · intro other returned
      by_cases here : other = write
      · subst here
        simpa using returned
      · simpa [here] using returned

theorem moves_handleDrain (sound : Sound writer) : Moves writer writer.handleDrain := by
  unfold handleDrain
  split
  · exact moves_nothing sound (fits_nil _)
  · split
    · exact moves_of_same sound
        ⟨rfl, rfl, fun _ => rfl, rfl, fun _ => rfl, rfl, fun _ => .inl, rfl, rfl, rfl, rfl, rfl, id⟩
        rfl (fits_nil _)
    · split
      · exact moves_nothing sound (fits_nil _)
      · exact (moves_setSaturated sound false).append (fits_cons trivial (fits_nil _))

theorem moves_settleDrained (sound : Sound writer) : Moves writer writer.settleDrained := by
  refine moves_nothing sound
    (fits_append ?_ (fits_cons trivial (fits_cons trivial (fits_nil _))))
  intro task member
  obtain ⟨entry, drained, rfl⟩ := List.mem_map.mp member
  exact fits_release sound.kept (sound.kept.settleOnDrain entry drained) trivial

theorem moves_clearSettleOnDrain (sound : Sound writer) :
    Moves writer writer.clearSettleOnDrain :=
  moves_of_same sound
    ⟨rfl, rfl, fun _ => rfl, rfl, fun _ => rfl, rfl, fun entry member => (by cases member), rfl, rfl,
      rfl, rfl, rfl, id⟩ rfl (fits_nil _)

end Pieces

end OxeeUI.Ssh
