import OxeeUI.Journal.EpochReplacement
import OxeeUI.Journal.QueueSteps

/-!
# The rows of a new epoch

What each row of an epoch replacement does to the queue's cards and to the facts the pauses are
derived from.  Items precede every submission, so none of them is accepted; cards precede the
submissions too, so each is stored as it is restated.
-/

namespace OxeeUI.Journal

open OxeeUI.Library

/-! ## What pauses are derived from -/

/-- The facts the pauses are derived from, besides the cards. -/
structure PauseFacts where
  epoch : String
  marks : JournalQueuePauseMarks
  latestAcceptedTurnSequence : Nat

def pauseFacts (state : JournalReducerState) : PauseFacts where
  epoch := state.epoch
  marks := state.queuePauseMarks
  latestAcceptedTurnSequence := state.latestAcceptedTurnSequence

section Frames

variable (env : JournalEnvironment) (state : JournalReducerState)

@[simp]
theorem upsertJournalItem_pauseFacts (itemId : String) (revision : Int)
    (next : AgentJournalRenderItem) (fences : JournalItemFences) :
    pauseFacts (upsertJournalItem env state itemId revision next fences) = pauseFacts state := by
  unfold upsertJournalItem
  split <;> rfl

@[simp]
theorem observeJournalProviderActivity_pauseFacts (recovered : Bool) (itemId : String)
    (body : AgentJournalItemBody) (savedAt fence : Int) :
    pauseFacts (observeJournalProviderActivity env state recovered itemId body savedAt fence) =
      pauseFacts state := by
  unfold observeJournalProviderActivity
  split <;> rfl

@[simp]
theorem declareItemEcho_pauseFacts (itemId : String) (echoOf : Option JsValue) :
    pauseFacts (declareItemEcho state itemId echoOf) = pauseFacts state := by
  unfold declareItemEcho
  repeat' split
  all_goals rfl

@[simp]
theorem resolveJournalItemId_pauseFacts (itemId : String) (body : AgentJournalItemBody) :
    pauseFacts (resolveJournalItemId env state itemId body).1 = pauseFacts state := by
  unfold resolveJournalItemId
  repeat' split
  all_goals rfl

@[simp]
theorem setCard_pauseFacts (card : QueuedMessageRow) :
    pauseFacts (setCard state card) = pauseFacts state := rfl

@[simp]
theorem spendReportedCommandCards_pauseFacts :
    pauseFacts (spendReportedCommandCards state) = pauseFacts state := by
  refine foldl_frame pauseFacts (fun start card => ?_) state _
  unfold spendReportedCommandCard
  split <;> rfl

@[simp]
theorem spendCardOnSubmission_pauseFacts (content : JournalSubmissionContent) :
    pauseFacts (spendCardOnSubmission state content) = pauseFacts state := by
  unfold spendCardOnSubmission
  split <;> rfl

@[simp]
theorem applyJournalSubmission_pauseFacts (row : JournalRowBase)
    (content : JournalSubmissionContent) :
    pauseFacts (applyJournalSubmission env state row content) = pauseFacts state := by
  unfold applyJournalSubmission
  dsimp only
  rw [upsertJournalItem_pauseFacts]
  rfl

@[simp]
theorem noteJournalRow_pauseFacts (row : JournalRowBase) :
    pauseFacts (noteJournalRow state row) = pauseFacts state := rfl

@[simp]
theorem noteJournalActivity_pauseFacts (row : JournalRowBase) :
    pauseFacts (noteJournalActivity state row) = pauseFacts state := rfl

end Frames

/-! ## Items -/

/-- No submission and no card is folded yet, and nothing marks a pause. -/
structure EpochOpening (epoch : String) (state : JournalReducerState) : Prop where
  facts : pauseFacts state = ⟨epoch, createJournalQueuePauseMarks, 0⟩
  submissions : state.submissions = .empty
  cards : state.queue.cards = .empty

section Items

variable (env : JournalEnvironment) {epoch : String} {state : JournalReducerState}

theorem acceptSubmissionFromProviderItem_of_empty (empty : state.submissions = .empty)
    (providerItemId resolvedItemId : String) (row : JournalRowBase) :
    acceptSubmissionFromProviderItem state providerItemId resolvedItemId row = state := by
  have absent : submissionForItem state resolvedItemId = none := by
    rw [submissionForItem, empty]
    rfl
  unfold acceptSubmissionFromProviderItem
  rw [absent]
  exact ite_self state

theorem claimJournalItem_of_empty (empty : state.submissions = .empty) (row : JournalRowBase)
    (content : JournalItemContent) :
    pauseFacts (claimJournalItem env state row content).1 = pauseFacts state ∧
      (claimJournalItem env state row content).1.submissions = .empty := by
  have resolved : (resolveJournalItemId env
      (declareItemEcho state content.itemId content.echoOf) content.itemId
      content.body).1.submissions = .empty := by simp [empty]
  unfold claimJournalItem
  dsimp only
  split
  · simp [empty]
  · rw [acceptSubmissionFromProviderItem_of_empty resolved]
    simp [empty]

theorem applyJournalItemRow_of_empty (empty : state.submissions = .empty) (row : JournalRowBase)
    (savedAt : Int) (content : JournalItemContent) :
    pauseFacts (applyJournalItemRow env state row savedAt content) = pauseFacts state ∧
      (applyJournalItemRow env state row savedAt content).submissions = .empty ∧
      (applyJournalItemRow env state row savedAt content).queue = state.queue := by
  have claimed := claimJournalItem_of_empty env empty row content
  unfold applyJournalItemRow
  split
  · exact ⟨rfl, empty, rfl⟩
  · simp [claimed.1, claimed.2]

theorem spendReportedCommandCards_of_empty (empty : state.queue.cards = .empty) :
    spendReportedCommandCards state = state := by
  unfold spendReportedCommandCards
  rw [empty]
  rfl

theorem EpochOpening.applyJournalRow_item (opening : EpochOpening epoch state)
    (base : JournalRowBase) (content : JournalItemContent) :
    EpochOpening epoch (applyJournalRow env state ⟨base, .item content⟩) := by
  have empty : (noteJournalActivity state base).submissions = .empty := opening.submissions
  have written := applyJournalItemRow_of_empty env empty base base.ts content
  have cards : (applyJournalItemRow env (noteJournalActivity state base) base base.ts
      content).queue.cards = .empty := by
    rw [written.2.2]
    exact opening.cards
  have unspent : applyJournalRow env state ⟨base, .item content⟩ =
      applyJournalItemRow env (noteJournalActivity state base) base base.ts content :=
    spendReportedCommandCards_of_empty cards
  rw [unspent]
  exact ⟨written.1.trans opening.facts, written.2.1, cards⟩

end Items

/-! ## Cards -/

section Cards

variable (env : JournalEnvironment) {state : JournalReducerState}

theorem applyQueuedChange_of_empty (empty : state.submissions = .empty) (messageId : String)
    (change : JournalQueuedChange) :
    applyQueuedChange env state messageId change =
      setCard state (queuedCardFromChange env state messageId change) := by
  unfold applyQueuedChange
  dsimp only
  split
  · next attempt _ =>
    refine settleHandOffInDoubt_of_absent ?_
    rw [(setCard_frame state _).2.2.1, empty]
    exact JsMap.get?_empty attempt
  · rfl

/-- What a card keeps when it is restated while it waits. -/
structure RestatedCard (card restated : QueuedMessageRow) : Prop where
  messageId : restated.messageId = card.messageId
  waiting : restated.state = .waiting
  unheld : restated.holdReason = none
  queuedAt : restated.queuedAt = card.queuedAt

theorem queuedCardFromChange_retained {card : QueuedMessageRow} (waiting : card.state = .waiting)
    (unheld : card.holdReason = none) :
    RestatedCard card
      (queuedCardFromChange env state card.messageId (retainedChange card)) := by
  have change : retainedChange card = { queuedChangeOf card with holdReason := none } := by
    unfold retainedChange
    rw [waiting]
    dsimp only
    rw [unheld]
  rw [change]
  exact ⟨rfl, rfl, rfl, rfl⟩

/-- The cards a state stores are held as they were restated. -/
def StoresRestated (state : JournalReducerState) (card : QueuedMessageRow) : Prop :=
  ∃ restated, state.queue.cards.get? card.messageId = some restated ∧ RestatedCard card restated

theorem StoresRestated.set {card other : QueuedMessageRow} (stored : StoresRestated state card)
    (apart : other.messageId ≠ card.messageId) : StoresRestated (setCard state other) card := by
  rcases stored with ⟨restated, found, same⟩
  refine ⟨restated, ?_, same⟩
  rw [setCard_cards, JsMap.get?_set_of_ne _ _ apart.symm]
  exact found

namespace EpochReplacement

variable (input : EpochReplacement)

def notedCard (draft : EpochDraft) : JournalReducerState :=
  noteJournalRow draft.state
    (rowBase draft.state draft.state.highestFence (input.nextNow draft.state))

theorem pushCard_queued {draft : EpochDraft} (empty : draft.state.submissions = .empty)
    (messageId : String) (change : JournalQueuedChange) :
    (input.pushCard env draft (messageId, some (.queued change))).state =
      setCard (input.notedCard draft)
        (queuedCardFromChange env (input.notedCard draft) messageId change) := by
  have noted : (input.notedCard draft).submissions = .empty := empty
  exact applyQueuedChange_of_empty env noted messageId change

/-- Every waiting card without a hold of its own is stored as it was. -/
theorem foldl_pushCard_stores {kept : List QueuedMessageRow}
    (distinct : (kept.map (·.messageId)).Nodup) {draft : EpochDraft}
    (empty : draft.state.submissions = .empty) {card : QueuedMessageRow}
    (stored : (StoresRestated draft.state card ∧ card.messageId ∉ kept.map (·.messageId)) ∨
      (card ∈ kept ∧ card.state = .waiting ∧ card.holdReason = none)) :
    StoresRestated
      ((kept.map fun card => (card.messageId, some (.queued (retainedChange card)))).foldl
        (input.pushCard env) draft).state card := by
  induction kept generalizing draft with
  | nil =>
    rcases stored with ⟨stored, -⟩ | ⟨member, -⟩
    · exact stored
    · cases member
  | cons first rest ih =>
    rw [List.map_cons, List.nodup_cons] at distinct
    rw [List.map_cons, List.foldl_cons]
    have pushed := input.pushCard_queued env empty first.messageId
      (retainedChange first)
    have named := (queuedCardFromChange_spec env (input.notedCard draft) first.messageId
      (retainedChange first)).1
    refine ih distinct.2 (by rw [pushed]; exact empty) ?_
    rcases stored with ⟨stored, absent⟩ | ⟨member, waiting, unheld⟩
    · rw [List.map_cons, List.mem_cons, not_or] at absent
      refine Or.inl ⟨?_, absent.2⟩
      rw [pushed]
      refine StoresRestated.set stored ?_
      rw [named]
      exact fun same => absent.1 same.symm
    · rcases List.mem_cons.mp member with rfl | later
      · refine Or.inl ⟨?_, distinct.1⟩
        rw [pushed]
        have restated : RestatedCard card (queuedCardFromChange env (input.notedCard draft)
            card.messageId (retainedChange card)) :=
          queuedCardFromChange_retained env waiting unheld
        refine ⟨_, ?_, restated⟩
        rw [setCard_cards, named]
        exact JsMap.get?_set_self _ _ _
      · exact Or.inr ⟨later, waiting, unheld⟩

theorem foldl_pushCard_facts (kept : List QueuedMessageRow) {draft : EpochDraft}
    (empty : draft.state.submissions = .empty) :
    let cards := (kept.map fun card =>
      (card.messageId, some (.queued (retainedChange card)))).foldl (input.pushCard env) draft
    pauseFacts cards.state = pauseFacts draft.state ∧ cards.state.submissions = .empty := by
  induction kept generalizing draft with
  | nil => exact ⟨rfl, empty⟩
  | cons first rest ih =>
    have pushed := input.pushCard_queued env empty first.messageId (retainedChange first)
    have stored : (input.pushCard env draft (first.messageId,
        some (.queued (retainedChange first)))).state.submissions = .empty := by
      rw [pushed]
      exact empty
    have later := ih stored
    refine ⟨later.1.trans ?_, later.2⟩
    rw [pushed]
    rfl

end EpochReplacement

end Cards

/-! ## Carried submissions -/

section Submissions

variable (env : JournalEnvironment) {state : JournalReducerState}

theorem StoresRestated.spendCardOnSubmission {card : QueuedMessageRow}
    (stored : StoresRestated state card)
    (named : ∀ messageId other, state.queue.cards.get? messageId = some other →
      other.messageId = messageId)
    {content : JournalSubmissionContent} (apart : content.queuedMessageId ≠ some card.messageId) :
    StoresRestated (spendCardOnSubmission state content) card := by
  unfold OxeeUI.Journal.spendCardOnSubmission
  split
  · exact stored
  · next spent found =>
    rcases Option.bind_eq_some_iff.mp found with ⟨messageId, spends, present⟩
    refine stored.set fun same => apart ?_
    rw [spends, ← same]
    exact congrArg some (named _ _ present).symm

theorem StoresRestated.applyJournalRow_submission {card : QueuedMessageRow}
    (linked : JournalLinked state) (stored : StoresRestated state card) (base : JournalRowBase)
    {content : JournalSubmissionContent} (apart : content.queuedMessageId ≠ some card.messageId) :
    StoresRestated (applyJournalRow env state ⟨base, .submission content⟩) card := by
  have queue : (applyJournalSubmission env (noteJournalActivity state base) base content).queue =
      state.queue := by
    unfold applyJournalSubmission
    dsimp only
    exact (upsertJournalItem_frame _ _ _ _ _ _).2.2
  have kept : StoresRestated
      (applyJournalSubmission env (noteJournalActivity state base) base content) card := by
    unfold StoresRestated
    rw [queue]
    exact stored
  refine kept.spendCardOnSubmission ?_ apart
  rw [queue]
  exact linked.cardKeys

theorem applyJournalRow_submission_pauseFacts (base : JournalRowBase)
    (content : JournalSubmissionContent) :
    pauseFacts (applyJournalRow env state ⟨base, .submission content⟩) = pauseFacts state :=
  (spendCardOnSubmission_pauseFacts _ content).trans
    (applyJournalSubmission_pauseFacts env _ base content)

namespace EpochReplacement

variable (input : EpochReplacement)

@[simp]
theorem push_state (draft : EpochDraft) (row : JournalRow) :
    (push env draft row).state = applyJournalRow env draft.state row := rfl

theorem mem_insertByAccepted {submission other : AgentJournalSubmission}
    {sorted : List AgentJournalSubmission} (member : other ∈ insertByAccepted submission sorted) :
    other = submission ∨ other ∈ sorted := by
  induction sorted with
  | nil => exact Or.inl (List.mem_singleton.mp member)
  | cons first rest ih =>
    unfold insertByAccepted at member
    split at member
    · exact List.mem_cons.mp member
    · rcases List.mem_cons.mp member with rfl | later
      · exact Or.inr List.mem_cons_self
      · exact (ih later).imp id (List.mem_cons_of_mem _)

theorem mem_carriedSubmissions {submission : AgentJournalSubmission}
    (member : submission ∈ input.carriedSubmissions) :
    submission ∈ input.previous.submissions.values ∧
      isQueuedAgentJournalSubmission submission := by
  refine List.mem_filter.mp ?_
  refine @foldl_preserves_of_mem _ _ _
    (fun sorted => ∀ other ∈ sorted,
      other ∈ input.previous.submissions.values.filter isQueuedAgentJournalSubmission)
    [] ?_ _ ?_ submission member
  · intro other absent
    cases absent
  · intro sorted first carried members other inserted
    rcases mem_insertByAccepted inserted with rfl | earlier
    · exact carried
    · exact members other earlier

/-- The state while the carried submissions are restated. -/
structure Carrying (epoch : String) (unspent : QueuedMessageRow → Prop)
    (state : JournalReducerState) : Prop where
  facts : pauseFacts state = ⟨epoch, createJournalQueuePauseMarks, 0⟩
  linked : JournalLinked state
  cards : ∀ card, unspent card → StoresRestated state card

theorem pushSubmission_carrying {unspent : QueuedMessageRow → Prop} {epoch : String}
    {draft next : EpochDraft} {submission : AgentJournalSubmission}
    (apart : ∀ card, unspent card → submission.queuedMessageId ≠ some card.messageId)
    (carrying : Carrying epoch unspent draft.state)
    (pushed : input.pushSubmission env draft submission = .ok next) :
    Carrying epoch unspent next.state := by
  unfold pushSubmission at pushed
  split at pushed
  case h_2 => cases pushed
  case h_1 =>
    cases pushed
    rw [push_state]
    refine ⟨?_, carrying.linked.applyJournalRow env _, fun card free => ?_⟩
    · exact (applyJournalRow_submission_pauseFacts env _ _).trans carrying.facts
    · exact (carrying.cards card free).applyJournalRow_submission env carrying.linked _
        (apart card free)

end EpochReplacement

end Submissions

end OxeeUI.Journal
