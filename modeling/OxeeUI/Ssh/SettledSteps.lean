import OxeeUI.Ssh.SettledWrites

/-!
# The steps that keep every promise

Piece by piece: what an open writer promises its entries, it promises them after
the piece, unless the piece closes the writer or loses an entry.
-/

namespace OxeeUI.Ssh

open TransportWriter Library

variable {writer : TransportWriter} {rest : List WriterTask}

/-- What is known of a machine with something on its stack. -/
structure Standing (writer : TransportWriter) (stack : List WriterTask) : Prop where
  coherent : Coherent ⟨writer, stack⟩
  framed : Framed ⟨writer, stack⟩
  isOpen : writer.closed = false
  promised : Promised writer stack

namespace Standing

theorem fitsRest {task : WriterTask} (standing : Standing writer (task :: rest)) :
    ∀ other ∈ rest, other.Fits writer := fun other member =>
  standing.coherent.fits other (List.mem_cons_of_mem _ member)

theorem split {task : WriterTask} (standing : Standing writer (task :: rest)) :
    Promised writer ([task] ++ rest) := standing.promised

theorem callReturned {call : OutsideCall} (other : ∀ write, call ≠ .write write)
    (standing : Standing writer (.outside call :: rest)) : Promised writer rest := by
  have swapped := @Promised.swap writer writer _ _ [] standing.split (.refl writer)
    standing.fitsRest
  refine swapped (fun _ => Iff.rfl) rfl rfl ?_ ?_ (by simp) id (by simp)
  · intro task member entry _ owner
    rw [List.mem_singleton.mp member] at owner
    cases call with
    | write write => exact absurd rfl (other write)
    | settled held result => cases owner
    | turnedAway result => cases owner
    | saturationChange saturated => cases owner
    | failure error => cases owner
    | removeDrainListener => cases owner
  · intro task member pump
    rw [List.mem_singleton.mp member] at pump
    cases pump

theorem pump (standing : Standing writer (.pump :: rest)) :
    Promised writer.pump.1 (writer.pump.2 ++ rest) := by
  unfold TransportWriter.pump
  split
  case isTrue stopped =>
    refine standing.split.swap (.refl writer) standing.fitsRest (fun _ => Iff.rfl) rfl rfl ?_ ?_
      (by simp) id (by simp)
    · intro task member entry _ owner
      rw [List.mem_singleton.mp member] at owner
      cases owner
    · intro task _ _ room _ _
      -- The loop of an outer `pump` goes on.
      rw [standing.isOpen, room, Bool.or_false, Bool.or_false] at stopped
      refine ⟨.pumpLoop, ?_, trivial⟩
      rcases List.mem_cons.mp (standing.framed.pumping stopped) with same | later
      · cases same
      · exact later
  case isFalse =>
    refine standing.split.swap ⟨rfl, rfl, le_refl _, fun _ _ => rfl, fun _ _ => id⟩
      standing.fitsRest (fun _ => Iff.rfl) rfl rfl ?_ ?_ (by simp) id (by simp)
    · intro task member entry _ owner
      rw [List.mem_singleton.mp member] at owner
      cases owner
    · exact fun _ _ _ _ _ _ => ⟨.pumpLoop, List.mem_cons_self, trivial⟩

theorem useCallbackResult {write : ℕ} (standing : Standing writer (.useCallbackResult write :: rest)) :
    Promised (writer.useCallbackResult write).1 ((writer.useCallbackResult write).2 ++ rest) := by
  have fits := standing.coherent.fits _ List.mem_cons_self
  have nothing : ∀ tasks : List WriterTask, (∀ task ∈ [WriterTask.useCallbackResult write],
      ∀ entry, (writer.entries entry).settled = false → task.Owns writer entry →
      ∃ other ∈ tasks, other.Owns writer entry) ∧
      (∀ task ∈ [WriterTask.useCallbackResult write], ¬ task.Pumps writer) := by
    intro tasks
    constructor
    · intro task member entry _ owner
      rw [List.mem_singleton.mp member] at owner
      cases owner
    · intro task member pump
      rw [List.mem_singleton.mp member] at pump
      cases pump
  unfold TransportWriter.useCallbackResult
  cases (writer.writes write).callbackResult with
  | none =>
    exact standing.split.swap (.refl writer) standing.fitsRest (fun _ => Iff.rfl) rfl rfl
      (nothing []).1 (fun task member pump => absurd pump ((nothing []).2 task member))
      (by simp) id (by simp)
  | some result =>
    refine standing.split.swap (.refl writer) standing.fitsRest (fun _ => Iff.rfl) rfl rfl
      (nothing _).1 (fun task member pump => absurd pump ((nothing []).2 task member))
      (by simp) id ?_
    intro entry settlement member
    simp only [List.mem_singleton, WriterTask.handleWriteSettlement.injEq, reduceCtorEq,
      or_false] at member
    exact .inl ⟨write, fits.1, member.1.symm, fits.2⟩

theorem handleWriteSettlement {entry : ℕ} {result : MultiplexerWriteSettlement}
    (standing : Standing writer (.handleWriteSettlement entry result :: rest)) :
    Promised (writer.handleWriteSettlement entry result).1
      ((writer.handleWriteSettlement entry result).2 ++ rest) := by
  have touched : Touched writer [.handleWriteSettlement entry result] entry :=
    .inl ⟨result, List.mem_cons_self⟩
  unfold TransportWriter.handleWriteSettlement
  split
  case isTrue settled =>
    refine standing.split.swap (.refl writer) standing.fitsRest (fun _ => Iff.rfl) rfl rfl ?_ ?_
      (by simp) id (by simp)
    · intro task member other unsettled owner
      rw [List.mem_singleton.mp member] at owner
      have same : entry = other := owner
      rw [← same, settled] at unsettled
      cases unsettled
    · intro task member pump
      rw [List.mem_singleton.mp member] at pump
      have unsettled : (writer.entries entry).settled = false := pump
      rw [settled] at unsettled
      cases unsettled
  case isFalse =>
    have owns : ∀ last : WriterTask, ∀ task ∈ [WriterTask.handleWriteSettlement entry result],
        ∀ other, (writer.entries other).settled = false → task.Owns writer other →
        ∃ next ∈ [.release entry result, last], next.Owns writer other := by
      intro last task member other _ owner
      rw [List.mem_singleton.mp member] at owner
      have same : entry = other := owner
      exact ⟨_, List.mem_cons_self, same⟩
    cases result with
    | accepted =>
      refine standing.split.swap (.refl writer) standing.fitsRest (fun _ => Iff.rfl) rfl rfl
        (owns _) (fun _ _ _ _ _ _ => ⟨.pump, by simp, trivial⟩) (by simp)
        (fun backed => ⟨.inl ⟨rfl, by simp⟩, backed⟩) ?_
      intro other settlement member
      simp only [List.mem_cons, reduceCtorEq, List.not_mem_nil, or_false,
        WriterTask.release.injEq, false_or] at member
      rw [member.1]
      exact .inr touched
    | refused reason error =>
      refine standing.split.swap (.refl writer) standing.fitsRest (fun _ => Iff.rfl) rfl rfl
        (owns _) (fun _ _ _ _ _ _ => ⟨.fail error, by simp, trivial⟩) (by simp)
        (fun backed => ⟨.inr ⟨error, by simp⟩, backed⟩) ?_
      intro other settlement member
      simp only [List.mem_cons, reduceCtorEq, List.not_mem_nil, or_false,
        WriterTask.release.injEq, false_or] at member
      rw [member.1]
      exact .inr touched
    | unverifiable reason error =>
      refine standing.split.swap (.refl writer) standing.fitsRest (fun _ => Iff.rfl) rfl rfl
        (owns _) (fun _ _ _ _ _ _ => ⟨.fail error, by simp, trivial⟩) (by simp)
        (fun backed => ⟨.inr ⟨error, by simp⟩, backed⟩) ?_
      intro other settlement member
      simp only [List.mem_cons, reduceCtorEq, List.not_mem_nil, or_false,
        WriterTask.release.injEq, false_or] at member
      rw [member.1]
      exact .inr touched

theorem waiting_select (scheduler : WriterLaneScheduler ℕ) (entry : ℕ) :
    (∃ lane, entry ∈ scheduler.waiting lane) ↔
      scheduler.select.1 = some entry ∨ ∃ lane, entry ∈ scheduler.select.2.waiting lane := by
  obtain ⟨lane, takes⟩ := (WriterLaneScheduler.select_spec scheduler).1
  constructor
  · rintro ⟨other, waits⟩
    by_cases same : other = lane
    · rw [same, takes.taken, List.mem_append, Option.mem_toList] at waits
      exact waits.imp id fun later => ⟨lane, later⟩
    · rw [← takes.others other same] at waits
      exact .inr ⟨other, waits⟩
  · rintro (chosen | ⟨other, waits⟩)
    · refine ⟨lane, ?_⟩
      rw [takes.taken, List.mem_append, Option.mem_toList]
      exact .inl chosen
    · refine ⟨other, ?_⟩
      by_cases same : other = lane
      · rw [same, takes.taken, List.mem_append]
        exact .inr (same ▸ waits)
      · rwa [← takes.others other same]

theorem pumpLoop (standing : Standing writer (.pumpLoop :: rest)) :
    Promised writer.pumpLoop.1 (writer.pumpLoop.2 ++ rest) := by
  have silent : ∀ task ∈ [WriterTask.pumpLoop], ∀ entry, ¬ task.Owns writer entry := by
    intro task member entry owner
    rw [List.mem_singleton.mp member] at owner
    cases owner
  unfold TransportWriter.pumpLoop
  split
  case isTrue stopped =>
    rw [standing.isOpen, Bool.false_or] at stopped
    refine standing.split.swap ⟨rfl, rfl, le_refl _, fun _ _ => rfl, fun _ _ => id⟩
      standing.fitsRest (fun _ => Iff.rfl) rfl rfl ?_ ?_ (by simp) id (by simp)
    · exact fun task member entry _ owner => absurd owner (silent task member entry)
    · intro task _ _ room
      rw [stopped] at room
      cases room
  case isFalse running =>
    have taken := waiting_select writer.scheduler
    cases selected : writer.scheduler.select with
    | mk chosen scheduler =>
      rw [selected] at taken
      cases chosen with
      | none =>
        -- Nothing waits, so the end of the loop leaves nothing behind.
        have empty := (WriterLaneScheduler.select_spec writer.scheduler).2
        rw [selected] at empty
        have idle : ∀ entry, ¬ writer.Waiting entry := by
          rintro entry ⟨lane, waits⟩
          rw [empty rfl lane] at waits
          cases waits
        refine @Promised.replace writer _ _ rest [] standing.split
          ⟨rfl, rfl, le_refl _, fun _ _ => rfl, fun _ _ => id⟩ standing.fitsRest ?_
        constructor
        case owns => exact fun task member entry _ owner => absurd owner (silent task member entry)
        case waits => exact fun entry waits => absurd waits (idle entry)
        case drains =>
          intro entry member _ settles
          exact .inr ⟨member, settles.imp id fun task => by simpa using task⟩
        case pumps =>
          exact fun _ entry waits => absurd ((taken entry).mpr (.inr waits)) (idle entry)
        case fails => simp
        case backed => exact id
        case touched =>
          rintro entry (⟨_, member⟩ | ⟨_, member⟩ | other)
          · cases member
          · cases member
          · exact .inr (.inr (.inr other))
      | some entry =>
        refine @Promised.replace writer
          (TransportWriter.startWrite { writer with scheduler } entry).1 _ rest
          [.outside (.write writer.started), .pumpLoop] standing.split
          ⟨rfl, rfl, Nat.le_succ _, fun write early => ?_, fun write early returned => ?_⟩
          standing.fitsRest ?_
        · rw [writes_startWrite { writer with scheduler } entry early]
        · rw [writes_startWrite { writer with scheduler } entry early]
          exact returned
        constructor
        case owns =>
          exact fun task member entry _ owner => absurd owner (silent task member entry)
        case waits =>
          intro other waits
          rcases (taken other).mp waits with same | waits
          · refine .inr ⟨_, List.mem_cons_self, ?_⟩
            have written := writes_startWrite_new { writer with scheduler } entry
            exact (congrArg TransportWrite.entry written).trans (Option.some.inj same)
          · exact .inl waits
        case drains =>
          intro other member _ settles
          refine .inr ⟨member, settles.imp id fun task => ?_⟩
          simpa using task
        case pumps => exact fun _ _ _ => .inl ⟨.pumpLoop, by simp, trivial⟩
        case fails => simp
        case backed => exact id
        case touched =>
          rintro other (⟨_, member⟩ | ⟨_, member⟩ | touched)
          · simp at member
          · simp at member
          · exact .inr (.inr (.inr touched))

theorem afterSaturation {transport : MultiplexerTransport}
    (settling : transport.supportsWriteSettlement = false) {write : ℕ}
    (standing : Standing writer (.afterSaturation write :: rest)) :
    Promised (writer.afterSaturation transport write).1
      ((writer.afterSaturation transport write).2 ++ rest) := by
  have fits := standing.coherent.fits _ List.mem_cons_self
  unfold TransportWriter.afterSaturation
  rw [if_neg (by simp [settling])]
  split
  case isTrue full =>
    refine standing.split.replace ⟨rfl, rfl, le_refl _, fun _ _ => rfl, fun _ _ => id⟩
      standing.fitsRest ?_
    constructor
    case owns =>
      intro task member entry _ owner
      rw [List.mem_singleton.mp member] at owner
      have same : (writer.writes write).entry = entry := owner
      exact .inr ⟨mem_addMember.mpr (.inr same.symm), full⟩
    case waits => exact fun _ => .inl
    case drains => exact fun entry member _ _ => .inr ⟨mem_addMember.mpr (.inl member), .inl full⟩
    case pumps =>
      intro room
      have room' : writer.saturated = false := room
      rw [full] at room'
      cases room'
    case fails => simp
    case backed => exact id
    case touched =>
      rintro entry (⟨_, member⟩ | ⟨_, member⟩ | drained | settled)
      · simp at member
      · simp at member
      · rcases mem_addMember.mp drained with before | rfl
        · exact .inr (.inr (.inr (.inl before)))
        · exact .inl ⟨write, fits.1, rfl, fits.2⟩
      · exact .inr (.inr (.inr (.inr settled)))
  case isFalse =>
    refine standing.split.swap (.refl writer) standing.fitsRest (fun _ => Iff.rfl) rfl rfl ?_ ?_
      (by simp) id ?_
    · intro task member entry _ owner
      rw [List.mem_singleton.mp member] at owner
      have same : (writer.writes write).entry = entry := owner
      exact ⟨_, List.mem_cons_self, same⟩
    · intro task member pump _ _ _
      rw [List.mem_singleton.mp member] at pump
      have unsettled : (writer.entries (writer.writes write).entry).settled = false := pump
      exact ⟨_, List.mem_cons_self, unsettled⟩
    · intro entry result member
      simp only [List.mem_cons, reduceCtorEq, List.not_mem_nil, or_false,
        WriterTask.handleWriteSettlement.injEq] at member
      exact .inl ⟨write, fits.1, member.1.symm, fits.2⟩

theorem settleDrained (standing : Standing writer (.settleDrained :: rest)) :
    Promised writer.settleDrained.1 (writer.settleDrained.2 ++ rest) := by
  refine standing.split.replace (.refl writer) standing.fitsRest ?_
  have releases : ∀ entry ∈ writer.settleOnDrain,
      .release entry .accepted ∈ writer.settleDrained.2 := fun entry member =>
    List.mem_append_left _ (List.mem_map_of_mem member)
  have pump : WriterTask.pump ∈ writer.settleDrained.2 := by
    refine List.mem_append_right _ ?_
    simp
  constructor
  case owns =>
    intro task member entry _ owner
    rw [List.mem_singleton.mp member] at owner
    cases owner
  case waits => exact fun _ => .inl
  case drains => exact fun entry member _ _ => .inl ⟨_, releases entry member, rfl⟩
  case pumps => exact fun _ _ _ => .inl ⟨_, List.mem_append_left _ pump, trivial⟩
  case fails => simp
  case backed =>
    intro backed
    unfold TransportWriter.settleDrained
    rw [List.append_assoc]
    exact backed_releases _ backed (by simp)
  case touched =>
    rintro entry (⟨result, member⟩ | ⟨result, member⟩ | other)
    · simp [TransportWriter.settleDrained] at member
    · simp only [TransportWriter.settleDrained, List.mem_append, List.mem_map,
        WriterTask.release.injEq, List.mem_cons, reduceCtorEq, List.not_mem_nil, or_false] at member
      obtain ⟨held, drained, rfl, _⟩ := member
      exact .inr (.inr (.inr (.inl drained)))
    · exact .inr (.inr (.inr other))

theorem clearSettleOnDrain (standing : Standing writer (.clearSettleOnDrain :: rest))
    (settled : ∀ entry ∈ writer.settleOnDrain, (writer.entries entry).settled = true) :
    Promised writer.clearSettleOnDrain.1 (writer.clearSettleOnDrain.2 ++ rest) := by
  refine standing.split.replace ⟨rfl, rfl, le_refl _, fun _ _ => rfl, fun _ _ => id⟩
    standing.fitsRest ?_
  constructor
  case owns =>
    intro task member entry _ owner
    rw [List.mem_singleton.mp member] at owner
    cases owner
  case waits => exact fun _ => .inl
  case drains =>
    intro entry member unsettled
    rw [settled entry member] at unsettled
    cases unsettled
  case pumps =>
    intro room entry waits
    refine .inr ⟨room, waits, fun task member pump => ?_⟩
    rw [List.mem_singleton.mp member] at pump
    cases pump
  case fails => simp
  case backed => exact id
  case touched =>
    rintro entry (⟨_, member⟩ | ⟨_, member⟩ | drained | settled)
    · cases member
    · cases member
    · cases drained
    · exact .inr (.inr (.inr (.inr settled)))

end Standing

end OxeeUI.Ssh
