import OxeeUI.Ssh.SettledSteps

/-!
# Runs that keep every promise

Settling an entry, the end of a write and the calls of the writer from outside;
then every run that loses nothing.
-/

namespace OxeeUI.Ssh

open TransportWriter Library

variable {writer : TransportWriter} {rest : List WriterTask}

section Settle

variable {entry : ℕ} {result : MultiplexerWriteSettlement}

/-- Settling one entry leaves what the others are promised. -/
theorem Standing.settle (standing : Standing writer (.release entry result :: rest))
    (admitted : entry < writer.admitted) (unsettled : (writer.entries entry).settled = false) :
    Promised (writer.settle entry result)
      (.outside (.settled entry (writer.verdict entry result)) :: rest) := by
  have promised := standing.promised
  have kind : ∀ other, ((writer.settle entry result).entries other).settled = false →
      other ≠ entry ∧ (writer.entries other).settled = false := by
    intro other open'
    have different : other ≠ entry := by
      rintro rfl
      rw [entries_settle] at open'
      cases open'
    rw [entries_settle_of_ne different] at open'
    exact ⟨different, open'⟩
  have later : ∀ task ∈ WriterTask.release entry result :: rest, task ≠ .release entry result →
      task ∈ WriterTask.outside (.settled entry (writer.verdict entry result)) :: rest := by
    intro task member different
    rcases List.mem_cons.mp member with same | later
    · exact absurd same different
    · exact List.mem_cons_of_mem _ later
  have followed := promised.backed.1
  constructor
  case owned =>
    intro other old open'
    obtain ⟨different, open'⟩ := kind other open'
    rcases promised.owned other old open' with waits | ⟨task, member, owner⟩ | ⟨drained, settles⟩
    · exact .inl waits
    · refine .inr (.inl ⟨task, later task member ?_, ?_⟩)
      · rintro rfl
        exact different owner.symm
      · cases task with
        | outside call => cases call <;> exact owner
        | _ => exact owner
    · refine .inr (.inr ⟨mem_deleteMember.mpr ⟨drained, different⟩, settles.imp id fun task => ?_⟩)
      exact later _ task (by simp)
  case pumps =>
    intro _ _ _
    rcases followed with ⟨_, pump⟩ | ⟨error, fails⟩
    · exact ⟨.pump, List.mem_cons_of_mem _ pump, trivial⟩
    · exact ⟨.fail error, List.mem_cons_of_mem _ fails, trivial⟩
  case backed => exact promised.backed.2
  case accepted =>
    intro other old given reports different
    by_cases here : other = entry
    · rw [here, entries_settle] at reports
      have given' : writer.verdict entry result = given := List.singleton_inj.mp reports
      rcases followed with ⟨rfl, _⟩ | ⟨error, fails⟩
      · exact absurd given'.symm different
      · exact ⟨error, List.mem_cons_of_mem _ fails⟩
    · rw [entries_settle_of_ne here] at reports
      obtain ⟨error, member⟩ := promised.accepted other old given reports different
      exact ⟨error, later _ member (by simp)⟩
  case returned =>
    intro other touched
    have writes : Returned writer other → Returned (writer.settle entry result) other := id
    refine writes ?_
    rcases touched with ⟨given, member⟩ | ⟨given, member⟩ | drained | ⟨old, settled⟩
    · exact promised.returned other (.inl ⟨given, by simpa using member⟩)
    · refine promised.returned other (.inr (.inl ⟨given, List.mem_cons_of_mem _ ?_⟩))
      simpa using member
    · exact promised.returned other (.inr (.inr (.inl (mem_deleteMember.mp drained).1)))
    · by_cases here : other = entry
      · rw [here]
        exact promised.returned entry (.inr (.inl ⟨result, List.mem_cons_self⟩))
      · rw [entries_settle_of_ne here] at settled
        exact promised.returned other (.inr (.inr (.inr ⟨old, settled⟩)))

theorem Standing.release (standing : Standing writer (.release entry result :: rest)) :
    Promised (writer.release entry result).1 ((writer.release entry result).2 ++ rest) := by
  have fits := standing.coherent.fits _ List.mem_cons_self
  cases settled : (writer.entries entry).settled with
  | false =>
    rw [release_unsettled standing.coherent.sound.kept fits.1 settled]
    exact standing.settle fits.1 settled
  | true =>
    rw [release_settled settled]
    refine standing.split.swap (.refl writer) standing.fitsRest (fun _ => Iff.rfl) rfl rfl ?_ ?_
      (by simp) id (by simp)
    · intro task member other unsettled owner
      rw [List.mem_singleton.mp member] at owner
      have same : entry = other := owner
      rw [← same, settled] at unsettled
      cases unsettled
    · intro task member pump
      rw [List.mem_singleton.mp member] at pump
      cases pump

end Settle

section WriteReturned

variable {write : ℕ}

theorem alike_setReturned (writer : TransportWriter) (write : ℕ) :
    Alike writer (writer.setReturned write) := by
  refine ⟨rfl, rfl, le_refl _, fun other _ => ?_, fun other _ returned => ?_⟩
  · unfold setReturned
    by_cases here : other = write
    · simp [here]
    · simp [here]
  · unfold setReturned
    by_cases here : other = write
    · simp [here]
    · simpa [here] using returned

theorem Standing.unsettled (standing : Standing writer (.outside (.write write) :: rest)) :
    (writer.entries (writer.writes write).entry).settled = false := by
  have kept := standing.coherent.sound.kept
  obtain ⟨early, running⟩ := standing.framed.running write List.mem_cons_self
  cases settled : (writer.entries (writer.writes write).entry).settled with
  | false => rfl
  | true =>
    obtain ⟨other, old, same, returned⟩ := standing.promised.returned _
      (.inr (.inr (.inr ⟨kept.writes write early, settled⟩)))
    rw [kept.write_unique old early same] at returned
    dsimp only at running
    rw [running] at returned
    cases returned

theorem Standing.writeThrew (standing : Standing writer (.outside (.write write) :: rest))
    (error : String) :
    Promised (writer.writeThrew write error).1 ((writer.writeThrew write error).2 ++ rest) := by
  refine standing.split.swap (alike_setReturned writer write) standing.fitsRest
    (fun _ => Iff.rfl) rfl rfl ?_ ?_ (by simp [TransportWriter.writeThrew]) id
    (by simp [TransportWriter.writeThrew])
  · exact fun _ _ _ _ _ => ⟨.fail error, by simp [TransportWriter.writeThrew], trivial⟩
  · exact fun _ _ _ _ _ _ => ⟨.fail error, by simp [TransportWriter.writeThrew], trivial⟩

/-- The writer is saturated, or its saturation has just been lifted. -/
theorem Standing.writeRefused (standing : Standing writer (.outside (.write write) :: rest))
    (settled : writer.drainObservedDuringWrite = true → ∀ entry ∈ writer.settleOnDrain,
      (writer.entries entry).settled = true) {changed : TransportWriter} {tasks : List WriterTask}
    (setting : (writer.setReturned write).setSaturated (!writer.drainObservedDuringWrite) =
      (changed, tasks)) :
    Promised changed (tasks ++ [.afterSaturation write] ++ rest) := by
  -- Whether or not the flag changes, these are the writer and its tasks.
  have shape : changed = { writer.setReturned write with
        saturated := !writer.drainObservedDuringWrite } ∧
      (tasks = [] ∨ ∃ flag, tasks = [.outside (.saturationChange flag)]) := by
    unfold TransportWriter.setSaturated at setting
    split at setting
    case isTrue same =>
      rw [Prod.mk.injEq] at setting
      refine ⟨?_, .inl setting.2.symm⟩
      rw [← setting.1, ← same]
    case isFalse =>
      rw [Prod.mk.injEq] at setting
      exact ⟨setting.1.symm, .inr ⟨_, setting.2.symm⟩⟩
  obtain ⟨rfl, tasks'⟩ := shape
  have alike := alike_setReturned writer write
  have early := (standing.framed.running write List.mem_cons_self).1
  have last : WriterTask.afterSaturation write ∈ tasks ++ [.afterSaturation write] := by simp
  refine standing.split.replace ⟨alike.entries, alike.admitted, alike.started, alike.writes,
    alike.returned⟩ standing.fitsRest ?_
  constructor
  case owns =>
    intro task member entry _ owner
    rw [List.mem_singleton.mp member] at owner
    have same : (writer.writes write).entry = entry := owner
    exact .inl ⟨_, last, (alike.writes write early).trans same⟩
  case waits => exact fun _ => .inl
  case drains =>
    intro entry member unsettled _
    refine .inr ⟨member, .inl ?_⟩
    cases observed : writer.drainObservedDuringWrite with
    | false => rfl
    | true =>
      rw [settled observed entry member] at unsettled
      cases unsettled
  case pumps =>
    intro _ _ _
    refine .inl ⟨_, List.mem_append_left _ last, ?_⟩
    have unsettled := standing.unsettled
    rw [← alike.writes write early] at unsettled
    exact unsettled
  case fails => simp
  case backed =>
    intro backed
    rcases tasks' with rfl | ⟨flag, rfl⟩
    · exact backed
    · exact backed
  case touched =>
    have silent : (∀ entry result, .handleWriteSettlement entry result ∉
        tasks ++ [.afterSaturation write]) ∧
        ∀ entry result, .release entry result ∉ tasks ++ [.afterSaturation write] := by
      rcases tasks' with rfl | ⟨flag, rfl⟩
      · simp
      · simp
    rintro entry (⟨_, member⟩ | ⟨_, member⟩ | other)
    · exact absurd member (silent.1 _ _)
    · exact absurd member (silent.2 _ _)
    · exact .inr (.inr (.inr other))

theorem Standing.writeReturned {transport : MultiplexerTransport}
    (settling : transport.supportsWriteSettlement = false) {accepted : Option Bool}
    (standing : Standing writer (.outside (.write write) :: rest))
    (settled : accepted = some false → writer.drainObservedDuringWrite = true →
      ∀ entry ∈ writer.settleOnDrain, (writer.entries entry).settled = true) :
    Promised (writer.writeReturned transport write accepted).1
      ((writer.writeReturned transport write accepted).2 ++ rest) := by
  unfold TransportWriter.writeReturned
  split
  case isTrue refused =>
    split
    · exact standing.writeRefused (settled refused) rfl
    · exact standing.writeThrew _
  case isFalse =>
    have early := (standing.framed.running write List.mem_cons_self).1
    have alike := alike_setReturned writer write
    rw [if_neg (by simp [settling])]
    refine standing.split.swap alike standing.fitsRest (fun _ => Iff.rfl) rfl rfl ?_ ?_ (by simp)
      id ?_
    · intro task member entry _ owner
      rw [List.mem_singleton.mp member] at owner
      have same : (writer.writes write).entry = entry := owner
      exact ⟨.handleWriteSettlement (writer.writes write).entry .accepted, by simp, same⟩
    · intro task member pump
      rw [List.mem_singleton.mp member] at pump
      cases pump
    · intro entry result member
      simp only [List.cons_append, List.nil_append, List.mem_cons, reduceCtorEq, List.not_mem_nil,
        or_false, WriterTask.handleWriteSettlement.injEq] at member
      refine .inl ⟨write, early, ?_, returned_setReturned writer write⟩
      exact (alike.writes write early).trans member.1.symm

end WriteReturned

section Calls

variable {stack : List WriterTask}

theorem Standing.whole (standing : Standing writer stack) : Promised writer ([] ++ stack) :=
  standing.promised

theorem Standing.call (standing : Standing writer stack) {after : TransportWriter}
    {tasks : List WriterTask} (alike : Alike writer after)
    (queues : after.scheduler = writer.scheduler)
    (drained : after.settleOnDrain = writer.settleOnDrain)
    (saturated : after.saturated = writer.saturated)
    (backed : Backed stack → Backed (tasks ++ stack))
    (returned : ∀ entry result, (.handleWriteSettlement entry result ∈ tasks ∨
      .release entry result ∈ tasks) → Returned after entry) : Promised after (tasks ++ stack) := by
  refine standing.whole.swap alike standing.coherent.fits (fun entry => ?_) drained saturated
    (by simp) (by simp) (by simp) backed fun entry result member => .inl (returned entry result member)
  unfold TransportWriter.Waiting
  rw [queues]

theorem Standing.handleDrain (standing : Standing writer stack) :
    Promised writer.handleDrain.1 (writer.handleDrain.2 ++ stack) := by
  unfold TransportWriter.handleDrain
  rw [if_neg (by simp [standing.isOpen])]
  split
  · exact standing.call ⟨rfl, rfl, le_refl _, fun _ _ => rfl, fun _ _ => id⟩ rfl rfl rfl id (by simp)
  · split
    · exact standing.call (.refl writer) rfl rfl rfl id (by simp)
    case isFalse saturated =>
      have full : writer.saturated = true := by simpa using saturated
      unfold TransportWriter.setSaturated
      rw [if_neg (by simp [full])]
      refine standing.whole.replace ⟨rfl, rfl, le_refl _, fun _ _ => rfl, fun _ _ => id⟩
        standing.coherent.fits ?_
      constructor
      case owns => simp
      case waits => exact fun _ => .inl
      case drains => exact fun entry member _ _ => .inr ⟨member, .inr (by simp)⟩
      case pumps => exact fun _ _ _ => .inl ⟨.settleDrained, by simp, trivial⟩
      case fails => simp
      case backed => exact id
      case touched =>
        rintro entry (⟨_, member⟩ | ⟨_, member⟩ | other)
        · simp at member
        · simp at member
        · exact .inr (.inr (.inr other))

theorem Standing.onWriteSettled (standing : Standing writer stack) {write : ℕ}
    (early : write < writer.started) (result : MultiplexerTransportWriteResult) :
    Promised (writer.onWriteSettled write result).1
      ((writer.onWriteSettled write result).2 ++ stack) := by
  unfold TransportWriter.onWriteSettled
  split
  case isTrue returned =>
    refine standing.call (.refl writer) rfl rfl rfl id fun entry settlement member => ?_
    simp only [List.mem_singleton, WriterTask.handleWriteSettlement.injEq, reduceCtorEq,
      or_false] at member
    exact ⟨write, early, member.1.symm, returned⟩
  case isFalse =>
    refine standing.call ⟨rfl, rfl, le_refl _, fun other _ => ?_, fun other _ returned => ?_⟩
      rfl rfl rfl id (by simp)
    · by_cases here : other = write
      · simp [here]
      · simp [here]
    · by_cases here : other = write
      · subst here
        simpa using returned
      · simpa [here] using returned

/-- A new entry, with what admitting it leaves to do. -/
theorem Standing.admitted (standing : Standing writer stack) {bytes : ℕ}
    {lane : MultiplexerWriterLane} {after : TransportWriter} {task : WriterTask}
    (entries : after.entries = (writer.retain bytes lane).entries)
    (count : after.admitted = writer.admitted + 1) (started : writer.started ≤ after.started)
    (writes : ∀ write < writer.started, after.writes write = writer.writes write)
    (drained : after.settleOnDrain = writer.settleOnDrain)
    (saturated : after.saturated = writer.saturated)
    (keeps : ∀ entry, writer.Waiting entry → after.Waiting entry)
    (waits : ∀ entry, after.Waiting entry → writer.Waiting entry ∨ task = .pump)
    (owned : after.Waiting writer.admitted ∨ task.Owns after writer.admitted)
    (plain : (∀ entry result, task ≠ .handleWriteSettlement entry result) ∧
      ∀ entry result, task ≠ .release entry result) : Promised after ([task] ++ stack) := by
  have kept := standing.coherent.sound.kept
  have promised := standing.promised
  have old : ∀ entry < writer.admitted, after.entries entry = writer.entries entry := by
    intro entry early
    rw [entries, entries_retain writer bytes lane early]
  have new : after.entries writer.admitted = ⟨bytes, lane, false, []⟩ := by
    rw [entries, entries_retain_new]
  have split : ∀ entry < after.admitted, entry < writer.admitted ∨ entry = writer.admitted := by
    intro entry early
    rw [count] at early
    exact Nat.lt_succ_iff_lt_or_eq.mp early
  constructor
  case owned =>
    intro entry early unsettled
    rcases split entry early with early | rfl
    · rw [old entry early] at unsettled
      rcases promised.owned entry early unsettled with waits | ⟨other, member, owner⟩ | ⟨held, settles⟩
      · exact .inl (keeps entry waits)
      · refine .inr (.inl ⟨other, List.mem_append_right _ member, ?_⟩)
        have fits := standing.coherent.fits other member
        cases other with
        | outside call =>
          cases call with
          | write write =>
            exact (congrArg TransportWrite.entry (writes write fits)).trans owner
          | settled held result => cases owner
          | turnedAway result => cases owner
          | saturationChange saturated => cases owner
          | failure error => cases owner
          | removeDrainListener => cases owner
        | afterSaturation write =>
          exact (congrArg TransportWrite.entry (writes write fits.1)).trans owner
        | _ => exact owner
      · rw [drained, saturated]
        exact .inr (.inr ⟨held, settles.imp id fun member => List.mem_append_right _ member⟩)
    · rcases owned with waits | owner
      · exact .inl waits
      · exact .inr (.inl ⟨task, List.mem_cons_self, owner⟩)
  case pumps =>
    intro room entry waiting
    rw [saturated] at room
    rcases waits entry waiting with before | rfl
    · obtain ⟨other, member, pump⟩ := promised.pumps room entry before
      refine ⟨other, List.mem_append_right _ member, ?_⟩
      have fits := standing.coherent.fits other member
      cases other with
      | afterSaturation write =>
        have same : after.entries (after.writes write).entry =
            writer.entries (writer.writes write).entry := by
          rw [writes write fits.1, old _ (kept.writes write fits.1)]
        exact (congrArg WriterEntry.settled same).trans pump
      | handleWriteSettlement held result =>
        have same := old held (kept.admitted_of_written fits.1)
        exact (congrArg WriterEntry.settled same).trans pump
      | _ => exact pump
    · exact ⟨.pump, List.mem_cons_self, trivial⟩
  case backed =>
    cases task with
    | release entry result => exact absurd rfl (plain.2 entry result)
    | _ => exact promised.backed
  case accepted =>
    intro entry early result reports different
    rcases split entry early with early | rfl
    · rw [old entry early] at reports
      obtain ⟨error, member⟩ := promised.accepted entry early result reports different
      exact ⟨error, List.mem_append_right _ member⟩
    · rw [new] at reports
      cases reports
  case returned =>
    intro entry touched
    have before : Returned writer entry := by
      rcases touched with ⟨result, member⟩ | ⟨result, member⟩ | held | ⟨early, settled⟩
      · rcases List.mem_append.mp member with first | later
        · exact absurd (List.mem_singleton.mp first).symm (plain.1 entry result)
        · exact promised.returned entry (.inl ⟨result, later⟩)
      · rcases List.mem_append.mp member with first | later
        · exact absurd (List.mem_singleton.mp first).symm (plain.2 entry result)
        · exact promised.returned entry (.inr (.inl ⟨result, later⟩))
      · rw [drained] at held
        exact promised.returned entry (.inr (.inr (.inl held)))
      · rcases split entry early with early | rfl
        · rw [old entry early] at settled
          exact promised.returned entry (.inr (.inr (.inr ⟨early, settled⟩)))
        · rw [new] at settled
          cases settled
    obtain ⟨write, early, same, returned⟩ := before
    refine ⟨write, lt_of_lt_of_le early started, ?_, ?_⟩
    · rw [writes write early]
      exact same
    · rw [writes write early]
      exact returned

theorem Standing.enqueue (standing : Standing writer stack) (bytes : ℕ)
    (lane : MultiplexerWriterLane) :
    Promised (writer.enqueue bytes lane).2.1 ((writer.enqueue bytes lane).2.2 ++ stack) := by
  unfold TransportWriter.enqueue
  rw [if_neg (by simp [standing.isOpen])]
  split
  · exact standing.call (.refl writer) rfl rfl rfl id (by simp)
  · cases writer.admissionError bytes lane with
    | some error => exact standing.call (.refl writer) rfl rfl rfl id (by simp)
    | none =>
      dsimp only
      split
      · -- A frame that is written although the writer is saturated.
        refine standing.admitted rfl rfl (Nat.le_succ _) (fun write early => ?_) rfl rfl
          (fun _ => id) (fun _ => .inl) (.inr ?_) (by simp)
        · exact writes_startWrite (writer.retain bytes lane) writer.admitted early
        · exact congrArg TransportWrite.entry
            (writes_startWrite_new (writer.retain bytes lane) writer.admitted)
      · have queued : ∀ entry other, entry ∈
            (writer.scheduler.enqueue writer.admitted lane).waiting other ↔
            entry ∈ writer.scheduler.waiting other ∨ (other = lane ∧ entry = writer.admitted) := by
          intro entry other
          rw [WriterLaneScheduler.waiting_enqueue, List.mem_append]
          by_cases same : other = lane
          · simp [same]
          · simp [same]
        refine standing.admitted rfl rfl (le_refl _) (fun _ _ => rfl) rfl rfl ?_
          (fun _ _ => .inr rfl) (.inl ⟨lane, (queued _ _).mpr (.inr ⟨rfl, rfl⟩)⟩) (by simp)
        rintro entry ⟨other, waits⟩
        exact ⟨other, (queued entry other).mpr (.inl waits)⟩

end Calls

end OxeeUI.Ssh
