import OxeeUI.Ssh.WriterRuns

/-!
# Writes that are running

A write is on the stack until it returns, and once.  While the loop of `pump` is
marked as running it is on the stack.
-/

namespace OxeeUI.Ssh

open TransportWriter Library

def WriterTask.writeOf : WriterTask → Option ℕ
  | .outside (.write write) => some write
  | _ => none

structure Framed (machine : WriterMachine) : Prop where
  /-- Calls of `transport.write` on the stack have not returned. -/
  running : ∀ write ∈ machine.stack.filterMap WriterTask.writeOf,
    write < machine.writer.started ∧ (machine.writer.writes write).returned = false
  distinct : (machine.stack.filterMap WriterTask.writeOf).Nodup
  pumping : machine.writer.pumping = true → WriterTask.pumpLoop ∈ machine.stack

section Framed

variable {writer after : TransportWriter} {rest tasks : List WriterTask}

theorem Framed.push {popped : List WriterTask} (framed : Framed ⟨writer, popped ++ rest⟩)
    (calls : tasks.filterMap WriterTask.writeOf = [])
    (started : after.started = writer.started)
    (returned : ∀ write, (writer.writes write).returned = false →
      (after.writes write).returned = false)
    (pumping : after.pumping = true → WriterTask.pumpLoop ∈ tasks ∨
      (writer.pumping = true ∧ WriterTask.pumpLoop ∉ popped)) :
    Framed ⟨after, tasks ++ rest⟩ := by
  have sublist : rest.filterMap WriterTask.writeOf <:+
      (popped ++ rest).filterMap WriterTask.writeOf := by
    rw [List.filterMap_append]
    exact List.suffix_append _ _
  refine ⟨?_, ?_, fun pumps => ?_⟩
  · rw [List.filterMap_append, calls, List.nil_append]
    intro write member
    obtain ⟨early, runs⟩ := framed.running write (sublist.subset member)
    rw [started]
    exact ⟨early, returned write runs⟩
  · rw [List.filterMap_append, calls, List.nil_append]
    exact framed.distinct.sublist sublist.sublist
  · rcases pumping pumps with new | ⟨before, kept⟩
    · exact List.mem_append_left _ new
    · rcases List.mem_append.mp (framed.pumping before) with here | later
      · exact absurd here kept
      · exact List.mem_append_right _ later

theorem framed_startWrite {popped : List WriterTask} (framed : Framed ⟨writer, popped ++ rest⟩)
    (entry : ℕ) {before : TransportWriter} (started : before.started = writer.started)
    (writes : before.writes = writer.writes) (tasks : List WriterTask)
    (calls : tasks.filterMap WriterTask.writeOf = [])
    (pumping : before.pumping = true → WriterTask.pumpLoop ∈ tasks ∨
      (writer.pumping = true ∧ WriterTask.pumpLoop ∉ popped)) :
    Framed ⟨(before.startWrite entry).1, (before.startWrite entry).2 ++ tasks ++ rest⟩ := by
  have sublist : rest.filterMap WriterTask.writeOf <:+
      (popped ++ rest).filterMap WriterTask.writeOf := by
    rw [List.filterMap_append]
    exact List.suffix_append _ _
  have stack : ((before.startWrite entry).2 ++ tasks ++ rest).filterMap WriterTask.writeOf =
      writer.started :: rest.filterMap WriterTask.writeOf := by
    rw [List.filterMap_append, List.filterMap_append, calls, ← started]
    rfl
  have old : ∀ write ∈ rest.filterMap WriterTask.writeOf,
      write < writer.started ∧ (writer.writes write).returned = false :=
    fun write member => framed.running write (sublist.subset member)
  refine ⟨?_, ?_, fun pumps => ?_⟩
  · rw [stack]
    intro write member
    have count : (before.startWrite entry).1.started = writer.started + 1 := by
      rw [← started]
      rfl
    rw [count]
    rcases List.mem_cons.mp member with rfl | later
    · refine ⟨Nat.lt_succ_self _, ?_⟩
      rw [← started, writes_startWrite_new]
    · obtain ⟨early, runs⟩ := old write later
      refine ⟨Nat.lt_succ_of_lt early, ?_⟩
      rw [writes_startWrite before entry (by rw [started]; exact early), writes]
      exact runs
  · rw [stack, List.nodup_cons]
    refine ⟨fun member => lt_irrefl _ (old _ member).1, ?_⟩
    exact framed.distinct.sublist sublist.sublist
  · have same : before.pumping = true := pumps
    rcases pumping same with new | ⟨was, kept⟩
    · exact List.mem_append_left _ (List.mem_append_right _ new)
    · rcases List.mem_append.mp (framed.pumping was) with here | later
      · exact absurd here kept
      · exact List.mem_append_right _ later

/-- A write that returns is no longer on the stack. -/
theorem framed_setReturned {write : ℕ} (framed : Framed ⟨writer, .outside (.write write) :: rest⟩)
    (started : after.started = writer.started)
    (writes : after.writes = (writer.setReturned write).writes)
    (pumping : after.pumping = writer.pumping)
    (calls : tasks.filterMap WriterTask.writeOf = []) : Framed ⟨after, tasks ++ rest⟩ := by
  have whole : (WriterTask.outside (.write write) :: rest).filterMap WriterTask.writeOf =
      write :: rest.filterMap WriterTask.writeOf := rfl
  have distinct := framed.distinct
  have running := framed.running
  dsimp only at distinct running
  rw [whole] at distinct running
  rw [List.nodup_cons] at distinct
  refine ⟨?_, ?_, fun pumps => ?_⟩
  · rw [List.filterMap_append, calls, List.nil_append]
    intro other member
    obtain ⟨early, runs⟩ := running other (List.mem_cons_of_mem _ member)
    have different : other ≠ write := by
      rintro rfl
      exact distinct.1 member
    rw [started, writes]
    refine ⟨early, ?_⟩
    unfold setReturned
    dsimp only
    rw [Function.update_of_ne different]
    exact runs
  · rw [List.filterMap_append, calls, List.nil_append]
    exact distinct.2
  · rw [pumping] at pumps
    have member := framed.pumping pumps
    rcases List.mem_cons.mp member with same | later
    · cases same
    · exact List.mem_append_right _ later

theorem calls_releases (entries : List ℕ) (result : MultiplexerWriteSettlement) :
    (entries.map fun entry => WriterTask.release entry result).filterMap WriterTask.writeOf = [] := by
  rw [List.filterMap_map]
  exact List.filterMap_eq_nil_iff.mpr fun _ _ => rfl

theorem calls_setSaturated (writer : TransportWriter) (saturated : Bool) :
    (writer.setSaturated saturated).2.filterMap WriterTask.writeOf = [] := by
  unfold setSaturated
  split
  · rfl
  · rfl

theorem calls_dispose (writer : TransportWriter) (error : String) :
    (writer.dispose error).2.filterMap WriterTask.writeOf = [] := by
  unfold dispose
  split
  · rfl
  · split
    · rfl
    · rfl

theorem dispose_writes (writer : TransportWriter) (error : String) :
    (writer.dispose error).1.started = writer.started ∧
      (writer.dispose error).1.writes = writer.writes ∧
      (writer.dispose error).1.pumping = writer.pumping := by
  unfold dispose
  split
  · exact ⟨rfl, rfl, rfl⟩
  · exact ⟨rfl, rfl, rfl⟩

theorem setSaturated_writes (writer : TransportWriter) (saturated : Bool) :
    (writer.setSaturated saturated).1.started = writer.started ∧
      (writer.setSaturated saturated).1.writes = writer.writes ∧
      (writer.setSaturated saturated).1.pumping = writer.pumping := by
  unfold setSaturated
  split
  · exact ⟨rfl, rfl, rfl⟩
  · exact ⟨rfl, rfl, rfl⟩

theorem Framed.pushStill {popped : List WriterTask} (framed : Framed ⟨writer, popped ++ rest⟩)
    (calls : tasks.filterMap WriterTask.writeOf = [])
    (still : after.started = writer.started ∧ after.writes = writer.writes ∧
      after.pumping = writer.pumping)
    (kept : WriterTask.pumpLoop ∉ popped) : Framed ⟨after, tasks ++ rest⟩ := by
  refine framed.push calls still.1 (fun write runs => ?_) fun pumps => .inr ⟨?_, kept⟩
  · rw [still.2.1]
    exact runs
  · rw [← still.2.2]
    exact pumps

theorem Framed.perform {transport : MultiplexerTransport} {task : WriterTask}
    (framed : Framed ⟨writer, task :: rest⟩) {result : TransportWriter × List WriterTask}
    (performed : writer.perform transport task = some result) :
    Framed ⟨result.1, result.2 ++ rest⟩ := by
  have split : Framed ⟨writer, [task] ++ rest⟩ := framed
  cases task with
  | outside call => cases performed
  | pump =>
    cases performed
    unfold TransportWriter.pump
    split
    · exact split.pushStill rfl ⟨rfl, rfl, rfl⟩ (by simp)
    · exact split.push rfl rfl (fun _ => id) fun _ => .inl List.mem_cons_self
  | pumpLoop =>
    cases performed
    unfold TransportWriter.pumpLoop
    split
    · exact split.push rfl rfl (fun _ => id) fun pumps => by cases pumps
    · cases writer.scheduler.select with
      | mk taken scheduler =>
        cases taken with
        | none => exact split.push rfl rfl (fun _ => id) fun pumps => by cases pumps
        | some entry =>
          exact @framed_startWrite writer rest _ split entry { writer with scheduler }
            rfl rfl [.pumpLoop] rfl fun _ => .inl List.mem_cons_self
  | afterSaturation write =>
    cases performed
    unfold TransportWriter.afterSaturation
    dsimp only
    split
    · exact split.pushStill rfl ⟨rfl, rfl, rfl⟩ (by simp)
    · split
      · exact split.pushStill rfl ⟨rfl, rfl, rfl⟩ (by simp)
      · exact split.pushStill rfl ⟨rfl, rfl, rfl⟩ (by simp)
  | useCallbackResult write =>
    cases performed
    unfold TransportWriter.useCallbackResult
    cases (writer.writes write).callbackResult with
    | none => exact split.pushStill rfl ⟨rfl, rfl, rfl⟩ (by simp)
    | some given => exact split.pushStill rfl ⟨rfl, rfl, rfl⟩ (by simp)
  | handleWriteSettlement entry settlement =>
    cases performed
    unfold TransportWriter.handleWriteSettlement
    split
    · exact split.pushStill rfl ⟨rfl, rfl, rfl⟩ (by simp)
    · cases settlement with
      | accepted => exact split.pushStill rfl ⟨rfl, rfl, rfl⟩ (by simp)
      | refused reason error => exact split.pushStill rfl ⟨rfl, rfl, rfl⟩ (by simp)
      | unverifiable reason error => exact split.pushStill rfl ⟨rfl, rfl, rfl⟩ (by simp)
  | release entry settlement =>
    cases performed
    unfold TransportWriter.release TransportWriter.onSettled
    split
    · exact split.pushStill rfl ⟨rfl, rfl, rfl⟩ (by simp)
    · split
      · exact split.pushStill rfl ⟨rfl, rfl, rfl⟩ (by simp)
      · exact split.pushStill rfl ⟨rfl, rfl, rfl⟩ (by simp)
  | fail error =>
    cases performed
    unfold TransportWriter.fail
    split
    · exact split.pushStill rfl ⟨rfl, rfl, rfl⟩ (by simp)
    · refine split.pushStill ?_ (dispose_writes writer error) (by simp)
      rw [List.filterMap_append, calls_dispose]
      rfl
  | disposeQueued error =>
    cases performed
    refine split.pushStill ?_ ⟨rfl, rfl, rfl⟩ (by simp)
    refine (List.filterMap_append ..).trans ?_
    rw [calls_releases]
    rfl
  | disposeInFlight error =>
    cases performed
    refine split.pushStill ?_ ⟨rfl, rfl, rfl⟩ (by simp)
    refine (List.filterMap_append ..).trans ?_
    rw [calls_releases]
    rfl
  | settleDrained =>
    cases performed
    refine split.pushStill ?_ ⟨rfl, rfl, rfl⟩ (by simp)
    refine (List.filterMap_append ..).trans ?_
    rw [calls_releases]
    rfl
  | clearSettleOnDrain =>
    cases performed
    exact split.pushStill rfl ⟨rfl, rfl, rfl⟩ (by simp)

theorem framed_enqueue {stack : List WriterTask} (framed : Framed ⟨writer, stack⟩) (bytes : ℕ)
    (lane : MultiplexerWriterLane) :
    Framed (WriterMachine.push ⟨writer, stack⟩ (writer.enqueue bytes lane).2) := by
  have split : Framed ⟨writer, [] ++ stack⟩ := framed
  unfold TransportWriter.enqueue
  split
  · exact split.pushStill rfl ⟨rfl, rfl, rfl⟩ (by simp)
  · split
    · exact split.pushStill rfl ⟨rfl, rfl, rfl⟩ (by simp)
    · cases writer.admissionError bytes lane with
      | some error => exact split.pushStill rfl ⟨rfl, rfl, rfl⟩ (by simp)
      | none =>
        dsimp only
        split
        · have started := @framed_startWrite writer stack _ split writer.admitted
            (writer.retain bytes lane) rfl rfl [] rfl fun pumps => .inr ⟨pumps, by simp⟩
          rwa [List.append_nil] at started
        · exact split.pushStill rfl ⟨rfl, rfl, rfl⟩ (by simp)

theorem framed_onWriteSettled {stack : List WriterTask} (framed : Framed ⟨writer, stack⟩)
    (write : ℕ) (result : MultiplexerTransportWriteResult) :
    Framed (WriterMachine.push ⟨writer, stack⟩ (writer.onWriteSettled write result)) := by
  have split : Framed ⟨writer, [] ++ stack⟩ := framed
  unfold TransportWriter.onWriteSettled
  split
  · exact split.pushStill rfl ⟨rfl, rfl, rfl⟩ (by simp)
  · refine split.push rfl rfl (fun other runs => ?_) fun pumps => .inr ⟨pumps, by simp⟩
    dsimp only
    by_cases here : other = write
    · subst here
      rw [Function.update_self]
      exact runs
    · rw [Function.update_of_ne here]
      exact runs

theorem framed_handleDrain {stack : List WriterTask} (framed : Framed ⟨writer, stack⟩) :
    Framed (WriterMachine.push ⟨writer, stack⟩ writer.handleDrain) := by
  have split : Framed ⟨writer, [] ++ stack⟩ := framed
  unfold TransportWriter.handleDrain
  split
  · exact split.pushStill rfl ⟨rfl, rfl, rfl⟩ (by simp)
  · split
    · exact split.pushStill rfl ⟨rfl, rfl, rfl⟩ (by simp)
    · split
      · exact split.pushStill rfl ⟨rfl, rfl, rfl⟩ (by simp)
      · refine split.pushStill ?_ (setSaturated_writes writer false) (by simp)
        refine (List.filterMap_append ..).trans ?_
        rw [calls_setSaturated]
        rfl

theorem framed_writeReturned (transport : MultiplexerTransport) {write : ℕ}
    (framed : Framed ⟨writer, .outside (.write write) :: rest⟩) (accepted : Option Bool) :
    Framed (WriterMachine.push ⟨writer, rest⟩ (writer.writeReturned transport write accepted)) := by
  unfold TransportWriter.writeReturned
  split
  · split
    · have still := setSaturated_writes (writer.setReturned write) (!writer.drainObservedDuringWrite)
      refine framed_setReturned framed still.1 still.2.1 still.2.2 ?_
      refine (List.filterMap_append ..).trans ?_
      rw [calls_setSaturated]
      rfl
    · exact framed_setReturned framed rfl rfl rfl rfl
  · refine framed_setReturned framed rfl rfl rfl ?_
    split
    · rfl
    · rfl

theorem framed_start (transport : MultiplexerTransport) : Framed (.start transport) where
  running := fun _ member => by cases member
  distinct := List.nodup_nil
  pumping := fun pumps => by cases pumps

theorem Framed.step {transport : MultiplexerTransport} {before after : WriterMachine}
    {input : WriterInput} (framed : Framed before) (step : WriterStep transport before input after) :
    Framed after := by
  obtain ⟨popped, rest, result, shape, rfl, piece⟩ := step.piece
  obtain ⟨writer, stack⟩ := before
  rw [shape] at framed
  cases piece with
  | enqueue bytes lane => exact framed_enqueue framed bytes lane
  | drain => exact framed_handleDrain framed
  | dispose error =>
    exact framed.pushStill (calls_dispose writer error) (dispose_writes writer error) (by simp)
  | settlement write result => exact framed_onWriteSettled framed write result
  | writeReturned write accepted => exact framed_writeReturned transport framed accepted
  | writeThrew write error => exact framed_setReturned framed rfl rfl rfl rfl
  | callReturned call other => exact framed.pushStill rfl ⟨rfl, rfl, rfl⟩ (by simp)
  | next task result performed => exact framed.perform performed

end Framed

end OxeeUI.Ssh
