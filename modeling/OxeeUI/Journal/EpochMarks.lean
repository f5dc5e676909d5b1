import Mathlib.Data.List.Induction
import OxeeUI.Journal.EpochDrafts

/-!
# Restated pause marks

The marks of a new epoch are told apart by the order they are written in: the lift first, so that
everything restated after it holds again.
-/

namespace OxeeUI.Journal

open OxeeUI.Library

/-! ## Readable marks -/

/-- Marks are folded only from rows that can be read. -/
structure JournalQueuePauseMarks.Readable (marks : JournalQueuePauseMarks) : Prop where
  stop : ∀ stop, marks.latestStop = some stop → isReadableStopEvent stop.2
  clear : ∀ cleared, marks.cleared = some cleared → cleared.operationId ≠ ""

theorem readQueueClear_operationId {value : JsValue} {sequence : Nat} {cleared : JournalQueueClear}
    (read : readQueueClear value sequence = some cleared) : cleared.operationId ≠ "" := by
  unfold readQueueClear at read
  split at read
  case h_2 => cases read
  case h_1 operationId messageIds _ _ =>
    rcases Option.bind_eq_some_iff.mp read with ⟨ids, -, kept⟩
    split at kept
    case isFalse => cases kept
    case isTrue named =>
      cases kept
      exact named.1

theorem JournalQueuePauseMarks.Readable.fold {marks : JournalQueuePauseMarks}
    (readable : marks.Readable) (row : JournalRowBase) (content : JournalTombstoneContent) :
    (foldJournalQueuePauseMark marks row content).Readable := by
  unfold foldJournalQueuePauseMark
  split
  case isTrue stop =>
    refine ⟨?_, readable.clear⟩
    intro latest same
    cases same
    exact stop
  case isFalse =>
    split
    · exact ⟨readable.stop, readable.clear⟩
    · split
      · exact ⟨readable.stop, readable.clear⟩
      · split
        case h_2 => exact readable
        case h_1 cleared read =>
          refine ⟨readable.stop, ?_⟩
          intro latest same
          cases same
          exact readQueueClear_operationId read

section Frames

variable (env : JournalEnvironment) (state : JournalReducerState)

theorem queuePauseMarks_of_pauseFacts {state next : JournalReducerState}
    (same : pauseFacts next = pauseFacts state) :
    next.queuePauseMarks = state.queuePauseMarks := congrArg PauseFacts.marks same

@[simp]
theorem removeJournalItem_pauseFacts (itemId : String) (revision : Int) :
    pauseFacts (removeJournalItem state itemId revision) = pauseFacts state := by
  unfold removeJournalItem
  split <;> rfl

@[simp]
theorem moveJournalItem_pauseFacts (itemId : String) (place : JournalPlace) :
    pauseFacts (moveJournalItem state itemId place) = pauseFacts state := by
  unfold moveJournalItem
  split <;> rfl

@[simp]
theorem retireRewoundJournalSubmission_pauseFacts (itemId : String) :
    pauseFacts (retireRewoundJournalSubmission env state itemId) = pauseFacts state := by
  unfold retireRewoundJournalSubmission
  split <;> rfl

@[simp]
theorem foldQueuedHandOffInDoubt_pauseFacts (clientMessageId : String)
    (submission : AgentJournalSubmission) :
    pauseFacts (foldQueuedHandOffInDoubt state clientMessageId submission) = pauseFacts state := by
  unfold foldQueuedHandOffInDoubt
  dsimp only
  split
  · rfl
  · exact moveJournalItem_pauseFacts _ _ _

@[simp]
theorem settleHandOffInDoubt_pauseFacts (clientMessageId : String) :
    pauseFacts (settleHandOffInDoubt state clientMessageId) = pauseFacts state := by
  unfold settleHandOffInDoubt
  repeat' split
  all_goals simp

@[simp]
theorem settleDispatchedCard_pauseFacts (clientMessageId : String) :
    pauseFacts (settleDispatchedCard state clientMessageId) = pauseFacts state := by
  unfold settleDispatchedCard
  repeat' split
  all_goals simp

@[simp]
theorem applyQueueRow_pauseFacts (messageId : String) (change : JournalQueueChange) :
    pauseFacts (applyQueueRow env state messageId change) = pauseFacts state := by
  unfold applyQueueRow
  split
  case h_1 change =>
    unfold applyQueuedChange
    dsimp only
    split <;> simp
  case h_5 =>
    split <;> rfl
  all_goals rfl

@[simp]
theorem placeHandedOverMessage_pauseFacts (submission : AgentJournalSubmission)
    (row : JournalRowBase) :
    pauseFacts (placeHandedOverMessage state submission row) = pauseFacts state := by
  unfold placeHandedOverMessage
  split
  · split
    · rfl
    · exact moveJournalItem_pauseFacts _ _ _
  · rfl

theorem settleDispatchedMessage_marks (submission : AgentJournalSubmission)
    (row : JournalRowBase) (content : JournalDispatchContent) :
    (settleDispatchedMessage state submission row content).queuePauseMarks =
      state.queuePauseMarks := by
  unfold settleDispatchedMessage
  split
  · exact queuePauseMarks_of_pauseFacts (placeHandedOverMessage_pauseFacts _ _ _)
  · exact queuePauseMarks_of_pauseFacts (moveJournalItem_pauseFacts _ _ _)
  · dsimp only
    split <;> rfl
  · rfl

@[simp]
theorem acceptSubmissionFromProviderItem_marks (providerItemId resolvedItemId : String)
    (row : JournalRowBase) :
    (acceptSubmissionFromProviderItem state providerItemId resolvedItemId row).queuePauseMarks =
      state.queuePauseMarks := by
  unfold acceptSubmissionFromProviderItem
  repeat' split
  all_goals rfl

@[simp]
theorem claimJournalItem_marks (row : JournalRowBase) (content : JournalItemContent) :
    (claimJournalItem env state row content).1.queuePauseMarks = state.queuePauseMarks := by
  have resolved : (resolveJournalItemId env (declareItemEcho state content.itemId content.echoOf)
      content.itemId content.body).1.queuePauseMarks = state.queuePauseMarks :=
    queuePauseMarks_of_pauseFacts (by simp)
  unfold claimJournalItem
  dsimp only
  split
  · exact resolved
  · exact (acceptSubmissionFromProviderItem_marks _ _ _ _).trans resolved

theorem applyJournalItemRow_marks (row : JournalRowBase) (savedAt : Int)
    (content : JournalItemContent) :
    (applyJournalItemRow env state row savedAt content).queuePauseMarks =
      state.queuePauseMarks := by
  unfold applyJournalItemRow
  split
  · rfl
  · refine Eq.trans (queuePauseMarks_of_pauseFacts ?_) (claimJournalItem_marks env state row content)
    simp

theorem applyJournalLifecycleMutation_marks (row : JournalRowBase) (savedAt : Int)
    (indexed : JournalLifecycleMutation × Nat) :
    (applyJournalLifecycleMutation env row savedAt state indexed).queuePauseMarks =
      state.queuePauseMarks := by
  rcases indexed with ⟨⟨content, producer, turnScope, observedAt⟩ | ⟨itemId, revision⟩, index⟩
  · unfold applyJournalLifecycleMutation
    dsimp only
    split
    · rfl
    · refine Eq.trans (queuePauseMarks_of_pauseFacts ?_)
        (claimJournalItem_marks env state row content)
      simp
  · exact queuePauseMarks_of_pauseFacts (removeJournalItem_pauseFacts _ _ _)

theorem applyJournalLifecycleBatch_marks (row : JournalRowBase) (savedAt : Int)
    (settlementId : String) (mutations : List JournalLifecycleMutation) :
    (applyJournalLifecycleBatch env state row savedAt settlementId mutations).queuePauseMarks =
      state.queuePauseMarks := by
  unfold applyJournalLifecycleBatch
  split
  · rfl
  · have folded := foldl_frame JournalReducerState.queuePauseMarks
      (fun start indexed => applyJournalLifecycleMutation_marks env start row savedAt indexed)
      state mutations.zipIdx
    simpa only using folded

theorem applyJournalDispatchRow_marks (row : JournalRowBase) (content : JournalDispatchContent) :
    (applyJournalDispatchRow env state row content).queuePauseMarks = state.queuePauseMarks := by
  unfold applyJournalDispatchRow
  split
  · rfl
  · split
    · exact settleDispatchedMessage_marks _ _ row content
    · rfl

end Frames

theorem applyJournalRow_marks (env : JournalEnvironment) (state : JournalReducerState)
    (row : JournalRow) :
    (applyJournalRow env state row).queuePauseMarks = state.queuePauseMarks ∨
      ∃ content, (applyJournalRow env state row).queuePauseMarks =
        foldJournalQueuePauseMark state.queuePauseMarks row.base content := by
  rcases row with ⟨base, content⟩
  cases content with
  | epoch content => exact Or.inl rfl
  | item content =>
    exact Or.inl ((queuePauseMarks_of_pauseFacts (spendReportedCommandCards_pauseFacts _)).trans
      (applyJournalItemRow_marks env _ base base.ts content))
  | tombstone content =>
    by_cases marks : isJournalStopOrResumeRow content
    · refine Or.inr ⟨content, ?_⟩
      show (applyJournalTombstoneRow env _ base content).queuePauseMarks = _
      unfold applyJournalTombstoneRow
      rw [if_pos marks]
      rfl
    · refine Or.inl ?_
      show (applyJournalTombstoneRow env _ base content).queuePauseMarks = _
      unfold applyJournalTombstoneRow
      rw [if_neg marks]
      refine queuePauseMarks_of_pauseFacts ?_
      dsimp only
      split <;> simp
  | submission content =>
    exact Or.inl (queuePauseMarks_of_pauseFacts
      (applyJournalRow_submission_pauseFacts env base content))
  | dispatch content =>
    exact Or.inl ((queuePauseMarks_of_pauseFacts (settleDispatchedCard_pauseFacts _ _)).trans
      (applyJournalDispatchRow_marks env _ base content))
  | lifecycleBatch settlementId mutations =>
    exact Or.inl ((queuePauseMarks_of_pauseFacts (spendReportedCommandCards_pauseFacts _)).trans
      (applyJournalLifecycleBatch_marks env _ base base.ts settlementId mutations))
  | queue messageId change =>
    exact Or.inl (queuePauseMarks_of_pauseFacts (applyQueueRow_pauseFacts env _ _ _))

theorem replayJournal_readable (env : JournalEnvironment) (sessionId epoch : String)
    (rows : List JournalRow) :
    (replayJournal env sessionId epoch rows).queuePauseMarks.Readable := by
  induction rows using List.reverseRecOn with
  | nil => exact ⟨nofun, nofun⟩
  | append_singleton rows row ih =>
    rw [replayJournal_snoc]
    rcases applyJournalRow_marks env (replayJournal env sessionId epoch rows) row with
      same | ⟨content, folded⟩
    · rw [same]
      exact ih
    · rw [folded]
      exact ih.fold row.base content

/-! ## Writing the marks -/

structure JournalQueuePauseRestatement.Readable (restated : JournalQueuePauseRestatement) :
    Prop where
  stop : ∀ event, restated.liveStop = some event → isReadableStopEvent event
  clear : ∀ cleared, restated.cleared = some cleared →
    cleared.operationId ≠ "" ∧ ∀ messageId ∈ cleared.messageIds, messageId ≠ ""

/-- The marks that hold again what a restatement says: each after the lift. -/
structure RestatedMarks (restated : JournalQueuePauseRestatement)
    (marks : JournalQueuePauseMarks) : Prop where
  stop : marks.latestStop.map Prod.snd = restated.liveStop
  stopped : ∀ stop, marks.latestStop = some stop → marks.resumedSequence < stop.1
  reopened : if restated.reopened then marks.resumedSequence < marks.reopenedSequence
    else marks.reopenedSequence = 0
  clear : (marks.cleared.map fun cleared =>
    (⟨cleared.operationId, cleared.messageIds, cleared.lifted⟩ : QueueClearRestatement)) =
      restated.cleared
  cleared : ∀ cleared, marks.cleared = some cleared → marks.resumedSequence < cleared.sequence

structure MarksOnly (start : JournalReducerState) (state : JournalReducerState)
    (marks : JournalQueuePauseMarks) : Prop where
  queue : state.queue = start.queue
  epoch : state.epoch = start.epoch
  accepted : state.latestAcceptedTurnSequence = start.latestAcceptedTurnSequence
  marks : state.queuePauseMarks = marks

namespace EpochReplacement

variable (env : JournalEnvironment) (input : EpochReplacement)

def markBase (state : JournalReducerState) : JournalRowBase :=
  rowBase state input.fence (input.nextNow state)

theorem pushMark_marksOnly {start : JournalReducerState} {draft : EpochDraft}
    {marks : JournalQueuePauseMarks} (before : MarksOnly start draft.state marks)
    {mark : JournalTombstoneContent} (restates : isJournalStopOrResumeRow mark) :
    MarksOnly start (input.pushMark env draft mark).state
      (foldJournalQueuePauseMark marks (input.markBase draft.state) mark) := by
  have folded : (input.pushMark env draft mark).state =
      { noteJournalActivity draft.state (input.markBase draft.state) with
        queuePauseMarks := foldJournalQueuePauseMark draft.state.queuePauseMarks
          (input.markBase draft.state) mark } := by
    show applyJournalTombstoneRow env _ (input.markBase draft.state) mark = _
    unfold applyJournalTombstoneRow
    rw [if_pos restates]
    rfl
  rw [folded]
  refine ⟨before.queue, before.epoch, before.accepted, ?_⟩
  rw [← before.marks]

theorem pushMark_lastSequence (draft : EpochDraft) {mark : JournalTombstoneContent}
    (restates : isJournalStopOrResumeRow mark) :
    (input.pushMark env draft mark).state.lastSequence = draft.state.lastSequence + 1 := by
  show (applyJournalTombstoneRow env _ (input.markBase draft.state) mark).lastSequence = _
  unfold applyJournalTombstoneRow
  rw [if_pos restates]
  exact Nat.max_eq_right (Nat.le_succ _)

/-! ### One mark at a time -/

theorem foldJournalQueuePauseMark_stop (marks : JournalQueuePauseMarks) (row : JournalRowBase)
    {event : JsValue} (readable : isReadableStopEvent event) :
    foldJournalQueuePauseMark marks row (stopEventContent event) =
      { marks with latestStop := some (row.seq, event) } := by
  unfold foldJournalQueuePauseMark
  exact if_pos readable

theorem stopEvent_restates {event : JsValue} (readable : isReadableStopEvent event) :
    isJournalStopOrResumeRow (stopEventContent event) := by
  have present : event ≠ .undefined := by
    rintro rfl
    cases readable
  simp [isJournalStopOrResumeRow, stopEventContent, present]

theorem mapM_nonempty {messageIds : List String} (named : ∀ messageId ∈ messageIds, messageId ≠ "") :
    (messageIds.map JsValue.string).mapM (fun id => nonempty? id.string?) = some messageIds := by
  induction messageIds with
  | nil => rfl
  | cons first rest ih =>
    have head : nonempty? (JsValue.string first).string? = some first :=
      Option.filter_eq_some_iff.mpr ⟨rfl, decide_eq_true (named first List.mem_cons_self)⟩
    have tail := ih fun messageId member => named messageId (List.mem_cons_of_mem _ member)
    rw [List.map_cons, List.mapM_cons, head, tail]
    rfl

theorem readQueueClear_restated {clear : QueueClearRestatement} (named : clear.operationId ≠ "")
    (ids : ∀ messageId ∈ clear.messageIds, messageId ≠ "") (sequence : Nat) :
    readQueueClear (queueClearContent clear).queueClear sequence =
      some ⟨clear.operationId, clear.messageIds, clear.lifted, sequence⟩ := by
  have read := mapM_nonempty ids
  rcases clear with ⟨operationId, messageIds, lifted⟩
  cases lifted with
  | false =>
    show ((messageIds.map JsValue.string).mapM fun id => nonempty? id.string?).bind _ = _
    rw [read]
    exact if_pos ⟨named, Or.inl rfl⟩
  | true =>
    show ((messageIds.map JsValue.string).mapM fun id => nonempty? id.string?).bind _ = _
    rw [read]
    exact if_pos ⟨named, Or.inr rfl⟩

theorem foldJournalQueuePauseMark_clear (marks : JournalQueuePauseMarks) (row : JournalRowBase)
    {clear : QueueClearRestatement} (named : clear.operationId ≠ "")
    (ids : ∀ messageId ∈ clear.messageIds, messageId ≠ "") :
    foldJournalQueuePauseMark marks row (queueClearContent clear) =
      { marks with
        cleared := some ⟨clear.operationId, clear.messageIds, clear.lifted, row.seq⟩ } := by
  have read := readQueueClear_restated named ids row.seq
  unfold foldJournalQueuePauseMark
  rw [read]
  rfl

/-! ### The marks in order -/

variable {start : JournalReducerState} {draft : EpochDraft}

theorem restate_lift (before : MarksOnly start draft.state createJournalQueuePauseMarks) :
    let lifted := (if input.queuePause.lifted then [queueResumeContent] else []).foldl
      (input.pushMark env) draft
    ∃ resumed ≤ lifted.state.lastSequence,
      MarksOnly start lifted.state ⟨none, none, resumed, 0⟩ := by
  cases input.queuePause.lifted with
  | false => exact ⟨0, Nat.zero_le _, before⟩
  | true =>
    refine ⟨_, le_of_eq (input.pushMark_lastSequence env draft rfl).symm, ?_⟩
    exact input.pushMark_marksOnly env before rfl

theorem restate_stop (readable : input.queuePause.Readable) {resumed : Nat}
    (after : resumed ≤ draft.state.lastSequence)
    (before : MarksOnly start draft.state ⟨none, none, resumed, 0⟩) :
    let stopped := (input.queuePause.liveStop.map stopEventContent).toList.foldl
      (input.pushMark env) draft
    resumed ≤ stopped.state.lastSequence ∧
      ∃ latestStop : Option (Nat × JsValue), latestStop.map Prod.snd = input.queuePause.liveStop ∧
        (∀ stop, latestStop = some stop → resumed < stop.1) ∧
        MarksOnly start stopped.state ⟨none, latestStop, resumed, 0⟩ := by
  cases live : input.queuePause.liveStop with
  | none => exact ⟨after, none, rfl, nofun, before⟩
  | some event =>
    have read := readable.stop event live
    have sequence := input.pushMark_lastSequence env draft (stopEvent_restates read)
    have marked := input.pushMark_marksOnly env before (stopEvent_restates read)
    rw [foldJournalQueuePauseMark_stop _ _ read] at marked
    refine ⟨after.trans ((Nat.le_succ _).trans (le_of_eq sequence.symm)), some (_, event), rfl,
      ?_, marked⟩
    rintro stop ⟨⟩
    exact Nat.lt_succ_of_le after

theorem restate_reopen {resumed : Nat} {latestStop : Option (Nat × JsValue)}
    (after : resumed ≤ draft.state.lastSequence)
    (before : MarksOnly start draft.state ⟨none, latestStop, resumed, 0⟩) :
    let reopened := (if input.queuePause.reopened then [queueReopenContent] else []).foldl
      (input.pushMark env) draft
    resumed ≤ reopened.state.lastSequence ∧
      ∃ sequence,
        (if input.queuePause.reopened then resumed < sequence else sequence = 0) ∧
        MarksOnly start reopened.state ⟨none, latestStop, resumed, sequence⟩ := by
  cases input.queuePause.reopened with
  | false => exact ⟨after, 0, rfl, before⟩
  | true =>
    have restates : isJournalStopOrResumeRow queueReopenContent := rfl
    have sequence := input.pushMark_lastSequence env draft restates
    refine ⟨after.trans ((Nat.le_succ _).trans (le_of_eq sequence.symm)), _, ?_,
      input.pushMark_marksOnly env before restates⟩
    exact lt_of_lt_of_le (Nat.lt_succ_of_le after) (Nat.le_max_right _ _)

theorem restate_clear (readable : input.queuePause.Readable) {resumed reopened : Nat}
    {latestStop : Option (Nat × JsValue)} (after : resumed ≤ draft.state.lastSequence)
    (before : MarksOnly start draft.state ⟨none, latestStop, resumed, reopened⟩) :
    let restated := (input.queuePause.cleared.map queueClearContent).toList.foldl
      (input.pushMark env) draft
    ∃ cleared : Option JournalQueueClear,
      (cleared.map fun cleared =>
        (⟨cleared.operationId, cleared.messageIds, cleared.lifted⟩ : QueueClearRestatement)) =
          input.queuePause.cleared ∧
        (∀ latest, cleared = some latest → resumed < latest.sequence) ∧
        MarksOnly start restated.state ⟨cleared, latestStop, resumed, reopened⟩ := by
  cases stated : input.queuePause.cleared with
  | none => exact ⟨none, rfl, nofun, before⟩
  | some clear =>
    obtain ⟨named, ids⟩ := readable.clear clear stated
    have restates : isJournalStopOrResumeRow (queueClearContent clear) := rfl
    have marked := input.pushMark_marksOnly env before restates
    rw [foldJournalQueuePauseMark_clear _ _ named ids] at marked
    refine ⟨some _, rfl, ?_, marked⟩
    rintro latest ⟨⟩
    exact Nat.lt_succ_of_le after

theorem foldl_pushMark_restated (readable : input.queuePause.Readable)
    (before : MarksOnly start draft.state createJournalQueuePauseMarks) :
    ∃ marks, RestatedMarks input.queuePause marks ∧
      MarksOnly start (input.marks.foldl (input.pushMark env) draft).state marks := by
  unfold marks
  rw [List.foldl_append, List.foldl_append, List.foldl_append]
  obtain ⟨resumed, afterLift, lifted⟩ := input.restate_lift env before
  obtain ⟨afterStop, latestStop, sameStop, stopped, stopMarks⟩ :=
    input.restate_stop env readable afterLift lifted
  obtain ⟨afterReopen, reopened, sameReopen, reopenMarks⟩ :=
    input.restate_reopen env afterStop stopMarks
  obtain ⟨cleared, sameClear, clearedAfter, clearMarks⟩ :=
    input.restate_clear env readable afterReopen reopenMarks
  exact ⟨_, ⟨sameStop, stopped, sameReopen, sameClear, clearedAfter⟩, clearMarks⟩

end EpochReplacement

end OxeeUI.Journal
