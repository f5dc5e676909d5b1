import OxeeUI.Journal.QueueSteps

/-!
# What a row does to a submission

Said once, for every row and every submission: a row opens it, an echo or a dispatch
row settles it, a queue row displays its hand-off as doubtful, a rewind retires it, or
it stays as it was.
-/

namespace OxeeUI.Journal

open OxeeUI.Library

variable (env : JournalEnvironment)

/-- A rewind takes the submission along with its bubble. -/
def RetiresSubmission (row : JournalRow) (clientMessageId : String) : Prop :=
  ∃ content, row.content = .tombstone content ∧ isJournalStopOrResumeRow content = false ∧
    content.retireSubmission = true ∧
    parseAgentJournalItemKey env.ordinalOf content.itemId = some (.orca clientMessageId)

inductive SubmissionStep (state next : JournalReducerState) (row : JournalRow)
    (clientMessageId : String) : Prop
  | keep (same : next.submissions.get? clientMessageId = state.submissions.get? clientMessageId)
  | openPending (content : JournalSubmissionContent) (opened : AgentJournalSubmission)
      (kind : row.content = .submission content)
      (named : content.clientMessageId = clientMessageId)
      (stored : next.submissions.get? clientMessageId = some opened)
      (pending : opened.dispatchState = .pending)
  | echo (before after : AgentJournalSubmission)
      (found : state.submissions.get? clientMessageId = some before)
      (stored : next.submissions.get? clientMessageId = some after)
      (applies : journalDispatchRowApplies before = true)
      (accepted : after.dispatchState = .accepted)
  | dispatch (content : JournalDispatchContent) (before after : AgentJournalSubmission)
      (kind : row.content = .dispatch content)
      (named : content.clientMessageId = clientMessageId)
      (found : state.submissions.get? clientMessageId = some before)
      (stored : next.submissions.get? clientMessageId = some after)
      (applies : journalDispatchRowApplies before = true)
      (settled : after.dispatchState = content.state ∨ content.state = .rejected)
  | doubt (messageId : String) (change : JournalQueuedChange) (before : AgentJournalSubmission)
      (kind : row.content = .queue messageId (.queued change))
      (named : change.attempt = some clientMessageId)
      (found : state.submissions.get? clientMessageId = some before)
      (rejected : before.dispatchState = .rejected)
      (inDoubt : queuedHandOffOutcome before = .inDoubt)
      (stored : next.submissions.get? clientMessageId = some (handOffInDoubt before))
  | retire (retires : RetiresSubmission env row clientMessageId)
      (absent : next.submissions.get? clientMessageId = none)

theorem EchoAccepts.submissionStep {state next : JournalReducerState}
    (accepts : EchoAccepts state next) (row : JournalRow) (clientMessageId : String) :
    SubmissionStep env state next row clientMessageId := by
  rcases accepts clientMessageId with same | ⟨before, after, found, stored, applies, accepted, _⟩
  · exact .keep same
  · exact .echo before after found stored applies accepted

theorem applyJournalRow_dispatch_submissions {state : JournalReducerState}
    (linked : JournalLinked state) (base : JournalRowBase) (content : JournalDispatchContent)
    (clientMessageId : String) :
    SubmissionStep env state (applyJournalRow env state ⟨base, .dispatch content⟩)
      ⟨base, .dispatch content⟩ clientMessageId := by
  have unfolded : applyJournalRow env state ⟨base, .dispatch content⟩ =
      settleDispatchedCard
        (applyJournalDispatchRow env (noteJournalActivity state base) base content)
        content.clientMessageId := rfl
  rw [unfolded]
  have noted := linked.noteJournalActivity base
  by_cases settled : ∀ submission,
      state.submissions.get? content.clientMessageId = some submission →
        journalDispatchRowApplies submission = false
  · have ignored : applyJournalDispatchRow env (noteJournalActivity state base) base content =
        noteJournalActivity state base := applyJournalDispatchRow_of_settled env base settled
    rw [ignored, settleDispatchedCard_of_settled noted settled]
    exact .keep rfl
  · simp only [not_forall, Bool.not_eq_false] at settled
    obtain ⟨submission, found, applies⟩ := settled
    have present : (noteJournalActivity state base).submissions.get? content.clientMessageId =
        some submission := found
    have written := (applyJournalDispatchRow_of_applies env base present applies).1
    generalize applyJournalDispatchRow env (noteJournalActivity state base) base content =
      facts at written
    have stored : facts.submissions.get? content.clientMessageId =
        some (dispatchedSubmission env submission base content) := by
      rw [written, JsMap.get?_set_self]
    by_cases here : clientMessageId = content.clientMessageId
    · subst here
      rcases settleDispatchedCard_cases stored with
        ⟨same, _⟩ | ⟨_, _, _, _, _, same⟩ | ⟨_, _, rejected, _, same⟩
      · rw [same]
        exact .dispatch content submission _ rfl rfl found stored applies (Or.inl rfl)
      · rw [same]
        exact .dispatch content submission _ rfl rfl found stored applies (Or.inl rfl)
      · rw [same]
        exact .dispatch content submission _ rfl rfl found
          (by rw [foldQueuedHandOffInDoubt_submissions, JsMap.get?_set_self]) applies
          (Or.inr rejected)
    · have other : facts.submissions.get? clientMessageId =
          state.submissions.get? clientMessageId := by
        rw [written, JsMap.get?_set_of_ne _ _ here]
        rfl
      rcases settleDispatchedCard_cases stored with
        ⟨same, _⟩ | ⟨_, _, _, _, _, same⟩ | ⟨_, _, _, _, same⟩
      · rw [same]
        exact .keep other
      · rw [same]
        exact .keep other
      · rw [same]
        exact .keep (by
          rw [foldQueuedHandOffInDoubt_submissions, JsMap.get?_set_of_ne _ _ here, other])

theorem applyJournalRow_queue_submissions {state : JournalReducerState}
    (base : JournalRowBase) (messageId : String) (change : JournalQueueChange)
    (clientMessageId : String) :
    SubmissionStep env state (applyJournalRow env state ⟨base, .queue messageId change⟩)
      ⟨base, .queue messageId change⟩ clientMessageId := by
  have unfolded : applyJournalRow env state ⟨base, .queue messageId change⟩ =
      applyQueueRow env (noteJournalRow state base) messageId change := rfl
  rw [unfolded]
  cases change with
  | queued queued =>
    simp only [applyQueueRow, applyQueuedChange]
    split
    case h_2 => exact .keep rfl
    case h_1 attempt consumed =>
      have stated := queuedCardFromChange_consumedAs env consumed
      generalize queuedCardFromChange env (noteJournalRow state base) messageId queued = card
      rcases settleHandOffInDoubt_submissions (setCard (noteJournalRow state base) card)
          attempt with same | ⟨submission, found, rejected, inDoubt, changed⟩
      · exact .keep (by rw [same]; rfl)
      · by_cases here : clientMessageId = attempt
        · subst here
          exact .doubt messageId queued submission rfl stated found rejected inDoubt
            (by rw [changed, JsMap.get?_set_self])
        · exact .keep (by rw [changed, JsMap.get?_set_of_ne _ _ here]; rfl)
  | _ =>
    exact .keep (by
      rw [(applyQueueRow_of_edit env (noteJournalRow state base) messageId (by simp)).2.1]
      rfl)

theorem applyJournalRow_tombstone_submissions {state : JournalReducerState}
    (base : JournalRowBase) (content : JournalTombstoneContent) (clientMessageId : String) :
    SubmissionStep env state (applyJournalRow env state ⟨base, .tombstone content⟩)
      ⟨base, .tombstone content⟩ clientMessageId := by
  have unfolded : applyJournalRow env state ⟨base, .tombstone content⟩ =
      applyJournalTombstoneRow env (noteJournalActivity state base) base content := rfl
  rw [unfolded]
  unfold applyJournalTombstoneRow
  split
  case isTrue => exact .keep rfl
  case isFalse removal =>
    dsimp only
    split
    case isFalse => exact .keep (by simp)
    case isTrue retires =>
      unfold retireRewoundJournalSubmission
      split
      case h_2 => exact .keep (by simp)
      case h_1 retired parsed =>
        by_cases here : clientMessageId = retired
        · subst here
          exact .retire ⟨content, rfl, by simpa using removal, retires, parsed⟩ (by simp)
        · exact .keep (by simp [here])

theorem applyJournalRow_submission_submissions {state : JournalReducerState}
    (base : JournalRowBase) (content : JournalSubmissionContent) (clientMessageId : String) :
    SubmissionStep env state (applyJournalRow env state ⟨base, .submission content⟩)
      ⟨base, .submission content⟩ clientMessageId := by
  have written : (applyJournalRow env state ⟨base, .submission content⟩).submissions =
      state.submissions.set content.clientMessageId
        (submittedJournalSubmission env base content) := by
    show (spendCardOnSubmission (applyJournalSubmission env (noteJournalActivity state base) base
      content) content).submissions = _
    rw [(spendCardOnSubmission_frame _ content).2.1]
    simp [applyJournalSubmission]
  by_cases here : clientMessageId = content.clientMessageId
  · subst here
    exact .openPending content _ rfl rfl (by rw [written, JsMap.get?_set_self]) rfl
  · exact .keep (by rw [written, JsMap.get?_set_of_ne _ _ here])

theorem applyJournalRow_submissions {state : JournalReducerState} (linked : JournalLinked state)
    (row : JournalRow) (clientMessageId : String) :
    SubmissionStep env state (applyJournalRow env state row) row clientMessageId := by
  rcases row with ⟨base, content⟩
  have noted : EchoAccepts state (noteJournalActivity state base) := .of_eq rfl
  cases content with
  | epoch content => exact .keep rfl
  | item content =>
    have accepts := noted.trans
      (applyJournalItemRow_echoAccepts env (noteJournalActivity state base) base base.ts content)
    exact (accepts.trans (.of_eq (spendReportedCommandCards_frame _).2.1)).submissionStep
      env _ clientMessageId
  | tombstone content => exact applyJournalRow_tombstone_submissions env base content _
  | submission content => exact applyJournalRow_submission_submissions env base content _
  | dispatch content => exact applyJournalRow_dispatch_submissions env linked base content _
  | lifecycleBatch settlementId mutations =>
    have accepts := noted.trans
      (applyJournalLifecycleBatch_echoAccepts env (noteJournalActivity state base) base base.ts
        settlementId mutations)
    exact (accepts.trans (.of_eq (spendReportedCommandCards_frame _).2.1)).submissionStep
      env _ clientMessageId
  | queue messageId change => exact applyJournalRow_queue_submissions env base messageId change _

end OxeeUI.Journal
