import OxeeUI.Journal.Frames
import OxeeUI.Library.Run

/-!
# Submissions, cards and the hand-offs between them

A card and a submission name each other: the submission by the card it was sent
from, the card by the attempt it was spent on.  The invariant says that a refused
attempt never leaves its card spent on it, so a row about an attempt that is
already settled finds no card to move.
-/

namespace OxeeUI.Journal

open OxeeUI.Library

/-! ## Echoes accept submissions -/

/-- The only change an echo makes to a submission is to accept it once. -/
def EchoAccepts (first second : JournalReducerState) : Prop :=
  ∀ clientMessageId,
    second.submissions.get? clientMessageId = first.submissions.get? clientMessageId ∨
      ∃ before after,
        first.submissions.get? clientMessageId = some before ∧
        second.submissions.get? clientMessageId = some after ∧
        journalDispatchRowApplies before = true ∧
        after.dispatchState = .accepted ∧
        after.clientMessageId = before.clientMessageId

theorem EchoAccepts.of_eq {first second : JournalReducerState}
    (same : second.submissions = first.submissions) : EchoAccepts first second :=
  fun clientMessageId => Or.inl (by rw [same])

theorem EchoAccepts.trans {first second third : JournalReducerState}
    (early : EchoAccepts first second) (late : EchoAccepts second third) :
    EchoAccepts first third := by
  intro clientMessageId
  rcases late clientMessageId with
    lateSame | ⟨before, after, found, stored, applies, accepted, sameId⟩
  · rw [lateSame]
    exact early clientMessageId
  · rcases early clientMessageId with
      earlySame | ⟨oldest, middle, _, middleStored, _, middleAccepted, _⟩
    · exact Or.inr ⟨before, after, earlySame ▸ found, stored, applies, accepted, sameId⟩
    · -- an accepted submission is not accepted again
      rw [middleStored] at found
      cases found
      simp [journalDispatchRowApplies, middleAccepted] at applies

theorem submissionForItem_mem {state : JournalReducerState} {itemId key : String}
    {submission : AgentJournalSubmission}
    (found : submissionForItem state itemId = some (key, submission)) :
    state.submissions.get? key = some submission ∧
      agentJournalSubmissionKey submission.clientMessageId = itemId := by
  refine ⟨JsMap.get?_eq_some_iff.mpr (List.mem_of_find?_eq_some found), ?_⟩
  simpa using List.find?_some found

section Echoes

variable (env : JournalEnvironment) (state : JournalReducerState)

theorem acceptSubmissionFromProviderItem_echoAccepts (providerItemId resolvedItemId : String)
    (row : JournalRowBase) :
    EchoAccepts state
      (acceptSubmissionFromProviderItem state providerItemId resolvedItemId row) := by
  unfold acceptSubmissionFromProviderItem
  split
  · exact .of_eq rfl
  · split
    · exact .of_eq rfl
    case h_2 key submission found =>
      split
      case isFalse => exact .of_eq rfl
      case isTrue applies =>
        intro clientMessageId
        by_cases here : clientMessageId = key
        · subst here
          exact Or.inr ⟨submission, _, (submissionForItem_mem found).1,
            JsMap.get?_set_self .., applies, rfl, rfl⟩
        · exact Or.inl (JsMap.get?_set_of_ne _ _ here)

theorem claimJournalItem_echoAccepts (row : JournalRowBase) (content : JournalItemContent) :
    EchoAccepts state (claimJournalItem env state row content).1 := by
  unfold claimJournalItem
  dsimp only
  split
  · exact .of_eq (by simp)
  · exact (EchoAccepts.of_eq (by simp)).trans
      (acceptSubmissionFromProviderItem_echoAccepts _ _ _ _)

theorem applyJournalItemRow_echoAccepts (row : JournalRowBase) (savedAt : Int)
    (content : JournalItemContent) :
    EchoAccepts state (applyJournalItemRow env state row savedAt content) := by
  unfold applyJournalItemRow
  split
  · exact .of_eq rfl
  · exact (claimJournalItem_echoAccepts env state row content).trans (.of_eq (by simp))

theorem applyJournalLifecycleMutation_echoAccepts (row : JournalRowBase) (savedAt : Int)
    (indexed : JournalLifecycleMutation × Nat) :
    EchoAccepts state (applyJournalLifecycleMutation env row savedAt state indexed) := by
  rcases indexed with ⟨⟨content, producer, turnScope, observedAt⟩ | ⟨itemId, revision⟩, index⟩
  · unfold applyJournalLifecycleMutation
    dsimp only
    split
    · exact .of_eq rfl
    · exact (claimJournalItem_echoAccepts env state row content).trans (.of_eq (by simp))
  · exact .of_eq (by simp [applyJournalLifecycleMutation])

theorem applyJournalLifecycleBatch_echoAccepts (row : JournalRowBase) (savedAt : Int)
    (settlementId : String) (mutations : List JournalLifecycleMutation) :
    EchoAccepts state
      (applyJournalLifecycleBatch env state row savedAt settlementId mutations) := by
  unfold applyJournalLifecycleBatch
  split
  · exact .of_eq rfl
  · have folded : EchoAccepts state
        (mutations.zipIdx.foldl (applyJournalLifecycleMutation env row savedAt) state) :=
      foldl_relates (fun _ => .of_eq rfl) .trans
        (fun start indexed =>
          applyJournalLifecycleMutation_echoAccepts env start row savedAt indexed) _ _
    exact folded.trans (.of_eq rfl)

end Echoes

/-! ## The hand-off invariant -/

/-- Submissions and cards are stored under their own ids, and no card is spent on an
attempt of its own that was refused. -/
structure JournalLinked (state : JournalReducerState) : Prop where
  submissionKeys : ∀ clientMessageId submission,
    state.submissions.get? clientMessageId = some submission →
      submission.clientMessageId = clientMessageId
  cardKeys : ∀ messageId card,
    state.queue.cards.get? messageId = some card → card.messageId = messageId
  settled : ∀ clientMessageId submission messageId card,
    state.submissions.get? clientMessageId = some submission →
      submission.dispatchState = .rejected →
      submission.queuedMessageId = some messageId →
      state.queue.cards.get? messageId = some card →
      card.state = .dispatched → card.consumedAs ≠ some clientMessageId

theorem JournalLinked.initial (sessionId epoch : String) :
    JournalLinked (createJournalReducerState sessionId epoch) where
  submissionKeys := by
    intro clientMessageId submission found
    simp [createJournalReducerState] at found
  cardKeys := by
    intro messageId card found
    simp [createJournalReducerState, createJournalQueueState] at found
  settled := by
    intro clientMessageId submission messageId card found
    simp [createJournalReducerState] at found

theorem cardHandedOffAs_eq_some {state : JournalReducerState}
    {submission : AgentJournalSubmission} {card : QueuedMessageRow}
    (found : cardHandedOffAs state submission = some card) :
    ∃ messageId, submission.queuedMessageId = some messageId ∧
      state.queue.cards.get? messageId = some card ∧ card.state = .dispatched ∧
      card.consumedAs = some submission.clientMessageId := by
  rcases Option.filter_eq_some_iff.mp found with ⟨stored, spent⟩
  rcases Option.bind_eq_some_iff.mp stored with ⟨messageId, named, present⟩
  simp only [Bool.and_eq_true, decide_eq_true_eq] at spent
  exact ⟨messageId, named, present, spent.1, spent.2⟩

namespace JournalLinked

variable {state next : JournalReducerState}

theorem cardHandedOffAs_rejected (linked : JournalLinked state) {clientMessageId : String}
    {submission : AgentJournalSubmission}
    (found : state.submissions.get? clientMessageId = some submission)
    (rejected : submission.dispatchState = .rejected) :
    cardHandedOffAs state submission = none := by
  cases handedOff : cardHandedOffAs state submission with
  | none => rfl
  | some card =>
    rcases cardHandedOffAs_eq_some handedOff with ⟨messageId, named, stored, spent, consumed⟩
    rw [linked.submissionKeys _ _ found] at consumed
    exact absurd consumed (linked.settled _ _ _ _ found rejected named stored spent)

theorem step (linked : JournalLinked state)
    (submissions : ∀ clientMessageId submission,
      next.submissions.get? clientMessageId = some submission →
        submission.clientMessageId = clientMessageId ∧
        (submission.dispatchState = .rejected →
          state.submissions.get? clientMessageId = some submission ∨
            ∀ messageId card, submission.queuedMessageId = some messageId →
              next.queue.cards.get? messageId = some card →
              card.state = .dispatched → card.consumedAs ≠ some clientMessageId))
    (cards : ∀ messageId card,
      next.queue.cards.get? messageId = some card →
        card.messageId = messageId ∧
        (card.state = .dispatched →
          (∃ before, state.queue.cards.get? messageId = some before ∧
            before.state = .dispatched ∧ before.consumedAs = card.consumedAs) ∨
          ∀ clientMessageId submission, card.consumedAs = some clientMessageId →
            next.submissions.get? clientMessageId = some submission →
            submission.dispatchState = .rejected →
            submission.queuedMessageId ≠ some messageId)) :
    JournalLinked next where
  submissionKeys clientMessageId submission found := (submissions _ _ found).1
  cardKeys messageId card found := (cards _ _ found).1
  settled := by
    intro clientMessageId submission messageId card found rejected named stored spent consumed
    rcases (submissions _ _ found).2 rejected with old | apart
    · rcases (cards _ _ stored).2 spent with ⟨before, present, spentBefore, same⟩ | apart
      · exact linked.settled _ _ _ _ old rejected named present spentBefore (same.trans consumed)
      · exact apart _ _ consumed found rejected named
    · exact apart _ _ named stored spent consumed

theorem of_echoAccepts (linked : JournalLinked state) (accepts : EchoAccepts state next)
    (sameQueue : next.queue = state.queue) : JournalLinked next := by
  refine linked.step ?_ ?_
  · intro clientMessageId submission found
    rcases accepts clientMessageId with
      same | ⟨before, after, old, stored, _, accepted, sameId⟩
    · rw [same] at found
      exact ⟨linked.submissionKeys _ _ found, fun _ => Or.inl found⟩
    · rw [stored] at found
      cases found
      refine ⟨sameId.trans (linked.submissionKeys _ _ old), fun rejected => ?_⟩
      rw [accepted] at rejected
      cases rejected
  · intro messageId card stored
    rw [sameQueue] at stored
    exact ⟨linked.cardKeys _ _ stored, fun spent => Or.inl ⟨card, stored, spent, rfl⟩⟩

end JournalLinked

end OxeeUI.Journal
