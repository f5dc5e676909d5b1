import OxeeUI.Journal.Reducer
import OxeeUI.Library.RevisionedStore

/-!
# What each fold leaves alone

The item store is the live items beside the tombstones.  Each fold is described
once by the parts of the state it does not touch; the invariants are derived from
these descriptions and from the few folds that write the part at hand.
-/

namespace OxeeUI.Journal

open OxeeUI.Library

/-- Live items beside the revisions of removed ones. -/
def itemStore (state : JournalReducerState) : RevisionedStore String AgentJournalRenderItem :=
  ⟨state.items, state.tombstones⟩

def itemHighWater (state : JournalReducerState) (itemId : String) : WithBot Int :=
  (itemStore state).highWater AgentJournalRenderItem.revision itemId

section Frames

variable (env : JournalEnvironment) (state : JournalReducerState)

@[simp]
theorem upsertJournalItem_frame (itemId : String) (revision : Int)
    (next : AgentJournalRenderItem) (fences : JournalItemFences) :
    (upsertJournalItem env state itemId revision next fences).submissions = state.submissions ∧
      (upsertJournalItem env state itemId revision next fences).aliases = state.aliases ∧
      (upsertJournalItem env state itemId revision next fences).queue = state.queue := by
  unfold upsertJournalItem
  split <;> exact ⟨rfl, rfl, rfl⟩

@[simp]
theorem removeJournalItem_frame (itemId : String) (revision : Int) :
    (removeJournalItem state itemId revision).submissions = state.submissions ∧
      (removeJournalItem state itemId revision).aliases = state.aliases ∧
      (removeJournalItem state itemId revision).queue = state.queue := by
  unfold removeJournalItem
  split <;> exact ⟨rfl, rfl, rfl⟩

@[simp]
theorem moveJournalItem_frame (itemId : String) (place : JournalPlace) :
    (moveJournalItem state itemId place).tombstones = state.tombstones ∧
      (moveJournalItem state itemId place).submissions = state.submissions ∧
      (moveJournalItem state itemId place).aliases = state.aliases ∧
      (moveJournalItem state itemId place).queue = state.queue := by
  unfold moveJournalItem
  split <;> exact ⟨rfl, rfl, rfl, rfl⟩

@[simp]
theorem placeHandedOverMessage_frame (submission : AgentJournalSubmission)
    (row : JournalRowBase) :
    (placeHandedOverMessage state submission row).submissions = state.submissions ∧
      (placeHandedOverMessage state submission row).aliases = state.aliases ∧
      (placeHandedOverMessage state submission row).queue = state.queue := by
  unfold placeHandedOverMessage
  repeat' split
  all_goals simp

@[simp]
theorem placeRejectedMessage_frame (submission : AgentJournalSubmission)
    (row : JournalRowBase) :
    (placeRejectedMessage state submission row).submissions = state.submissions ∧
      (placeRejectedMessage state submission row).aliases = state.aliases ∧
      (placeRejectedMessage state submission row).queue = state.queue := by
  simp [placeRejectedMessage]

@[simp]
theorem noteTurnAccepted_frame (submission : AgentJournalSubmission) :
    itemStore (noteTurnAccepted state submission) = itemStore state ∧
      (noteTurnAccepted state submission).items = state.items ∧
      (noteTurnAccepted state submission).submissions = state.submissions ∧
      (noteTurnAccepted state submission).aliases = state.aliases ∧
      (noteTurnAccepted state submission).queue = state.queue :=
  ⟨rfl, rfl, rfl, rfl, rfl⟩

@[simp]
theorem foldStoppedHistoryCarried_frame (content : JournalDispatchContent) :
    itemStore (foldStoppedHistoryCarried state content) = itemStore state ∧
      (foldStoppedHistoryCarried state content).items = state.items ∧
      (foldStoppedHistoryCarried state content).submissions = state.submissions ∧
      (foldStoppedHistoryCarried state content).aliases = state.aliases ∧
      (foldStoppedHistoryCarried state content).queue = state.queue :=
  ⟨rfl, rfl, rfl, rfl, rfl⟩

@[simp]
theorem acceptSubmissionFromProviderItem_frame (providerItemId resolvedItemId : String)
    (row : JournalRowBase) :
    itemStore (acceptSubmissionFromProviderItem state providerItemId resolvedItemId row) =
        itemStore state ∧
      (acceptSubmissionFromProviderItem state providerItemId resolvedItemId row).aliases =
        state.aliases ∧
      (acceptSubmissionFromProviderItem state providerItemId resolvedItemId row).queue =
        state.queue := by
  unfold acceptSubmissionFromProviderItem
  repeat' split
  all_goals exact ⟨rfl, rfl, rfl⟩

@[simp]
theorem settleDispatchedMessage_frame (submission : AgentJournalSubmission)
    (row : JournalRowBase) (content : JournalDispatchContent) :
    (settleDispatchedMessage state submission row content).submissions = state.submissions ∧
      (settleDispatchedMessage state submission row content).queue = state.queue := by
  unfold settleDispatchedMessage
  repeat' split
  all_goals simp

@[simp]
theorem retireRewoundJournalSubmission_frame (itemId : String) :
    itemStore (retireRewoundJournalSubmission env state itemId) = itemStore state ∧
      (retireRewoundJournalSubmission env state itemId).queue = state.queue := by
  unfold retireRewoundJournalSubmission
  split <;> exact ⟨rfl, rfl⟩

@[simp]
theorem observeJournalProviderActivity_frame (recovered : Bool) (itemId : String)
    (body : AgentJournalItemBody) (savedAt fence : Int) :
    itemStore (observeJournalProviderActivity env state recovered itemId body savedAt fence) =
        itemStore state ∧
      (observeJournalProviderActivity env state recovered itemId body savedAt fence).submissions =
        state.submissions ∧
      (observeJournalProviderActivity env state recovered itemId body savedAt fence).aliases =
        state.aliases ∧
      (observeJournalProviderActivity env state recovered itemId body savedAt fence).queue =
        state.queue := by
  unfold observeJournalProviderActivity
  split <;> exact ⟨rfl, rfl, rfl, rfl⟩

@[simp]
theorem declareItemEcho_frame (itemId : String) (echoOf : Option JsValue) :
    itemStore (declareItemEcho state itemId echoOf) = itemStore state ∧
      (declareItemEcho state itemId echoOf).items = state.items ∧
      (declareItemEcho state itemId echoOf).submissions = state.submissions ∧
      (declareItemEcho state itemId echoOf).aliases = state.aliases ∧
      (declareItemEcho state itemId echoOf).queue = state.queue := by
  unfold declareItemEcho
  repeat' split
  all_goals exact ⟨rfl, rfl, rfl, rfl, rfl⟩

@[simp]
theorem resolveJournalItemId_frame (itemId : String) (body : AgentJournalItemBody) :
    itemStore (resolveJournalItemId env state itemId body).1 = itemStore state ∧
      (resolveJournalItemId env state itemId body).1.items = state.items ∧
      (resolveJournalItemId env state itemId body).1.itemEchoes = state.itemEchoes ∧
      (resolveJournalItemId env state itemId body).1.submissions = state.submissions ∧
      (resolveJournalItemId env state itemId body).1.queue = state.queue := by
  unfold resolveJournalItemId
  repeat' split
  all_goals exact ⟨rfl, rfl, rfl, rfl, rfl⟩

@[simp]
theorem claimJournalItem_frame (row : JournalRowBase) (content : JournalItemContent) :
    itemStore (claimJournalItem env state row content).1 = itemStore state ∧
      (claimJournalItem env state row content).1.queue = state.queue := by
  unfold claimJournalItem
  dsimp only
  split <;> simp

@[simp]
theorem setCard_frame (card : QueuedMessageRow) :
    itemStore (setCard state card) = itemStore state ∧
      (setCard state card).items = state.items ∧
      (setCard state card).submissions = state.submissions ∧
      (setCard state card).aliases = state.aliases ∧
      (setCard state card).queuedHandOffPlaces = state.queuedHandOffPlaces :=
  ⟨rfl, rfl, rfl, rfl, rfl⟩

@[simp]
theorem foldQueuedHandOffInDoubt_frame (clientMessageId : String)
    (submission : AgentJournalSubmission) :
    (foldQueuedHandOffInDoubt state clientMessageId submission).tombstones = state.tombstones ∧
      (foldQueuedHandOffInDoubt state clientMessageId submission).aliases = state.aliases ∧
      (foldQueuedHandOffInDoubt state clientMessageId submission).queue = state.queue := by
  unfold foldQueuedHandOffInDoubt
  dsimp only
  split <;> simp

@[simp]
theorem settleHandOffInDoubt_frame (clientMessageId : String) :
    (settleHandOffInDoubt state clientMessageId).tombstones = state.tombstones ∧
      (settleHandOffInDoubt state clientMessageId).aliases = state.aliases ∧
      (settleHandOffInDoubt state clientMessageId).queue = state.queue := by
  unfold settleHandOffInDoubt
  repeat' split
  all_goals simp

@[simp]
theorem spendReportedCommandCards_frame :
    itemStore (spendReportedCommandCards state) = itemStore state ∧
      (spendReportedCommandCards state).submissions = state.submissions ∧
      (spendReportedCommandCards state).aliases = state.aliases := by
  have each : ∀ (cards : List QueuedMessageRow) (start : JournalReducerState),
      itemStore (cards.foldl spendReportedCommandCard start) = itemStore start ∧
        (cards.foldl spendReportedCommandCard start).submissions = start.submissions ∧
        (cards.foldl spendReportedCommandCard start).aliases = start.aliases := by
    intro cards
    induction cards with
    | nil => exact fun start => ⟨rfl, rfl, rfl⟩
    | cons card rest ih =>
      intro start
      rw [List.foldl_cons]
      have step := ih (spendReportedCommandCard start card)
      have unchanged :
          itemStore (spendReportedCommandCard start card) = itemStore start ∧
            (spendReportedCommandCard start card).submissions = start.submissions ∧
            (spendReportedCommandCard start card).aliases = start.aliases := by
        unfold spendReportedCommandCard
        split <;> simp
      exact ⟨step.1.trans unchanged.1, step.2.1.trans unchanged.2.1,
        step.2.2.trans unchanged.2.2⟩
  exact each _ state

@[simp]
theorem spendCardOnSubmission_frame (content : JournalSubmissionContent) :
    itemStore (spendCardOnSubmission state content) = itemStore state ∧
      (spendCardOnSubmission state content).submissions = state.submissions ∧
      (spendCardOnSubmission state content).aliases = state.aliases := by
  unfold spendCardOnSubmission
  split <;> simp

@[simp]
theorem noteJournalActivity_frame (row : JournalRowBase) :
    itemStore (noteJournalActivity state row) = itemStore state ∧
      (noteJournalActivity state row).items = state.items ∧
      (noteJournalActivity state row).tombstones = state.tombstones ∧
      (noteJournalActivity state row).submissions = state.submissions ∧
      (noteJournalActivity state row).aliases = state.aliases ∧
      (noteJournalActivity state row).queue = state.queue :=
  ⟨rfl, rfl, rfl, rfl, rfl, rfl⟩

end Frames

end OxeeUI.Journal
