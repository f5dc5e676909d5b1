import Mathlib.Data.List.Induction
import OxeeUI.Journal.QueueSteps

/-!
# The history of an item

Every row is a sequence of steps of the item store, so a removed item never comes
back and no revision falls.  A write that is not newer than its item's history
leaves that item as it is, and a live item moves only when its own hand-off settles.
-/

namespace OxeeUI.Journal

open OxeeUI.Library RevisionedStore

variable (env : JournalEnvironment) (state : JournalReducerState)

/-- A sequence of store steps between the items of two states. -/
def ItemSteps (first second : JournalReducerState) : Prop :=
  Steps AgentJournalRenderItem.revision (itemStore first) (itemStore second)

theorem ItemSteps.of_eq {first second : JournalReducerState}
    (same : itemStore second = itemStore first) : ItemSteps first second := by
  unfold ItemSteps
  rw [same]
  exact Steps.refl _

theorem itemStore_congr {first second : JournalReducerState}
    (sameItems : second.items = first.items)
    (sameTombstones : second.tombstones = first.tombstones) :
    itemStore second = itemStore first := by
  unfold itemStore
  rw [sameItems, sameTombstones]

theorem ItemSteps.trans {first second third : JournalReducerState}
    (early : ItemSteps first second) (late : ItemSteps second third) : ItemSteps first third :=
  Steps.trans early late

theorem journalItemRevisionIsStale_iff (itemId : String) (revision : Int) :
    journalItemRevisionIsStale state itemId revision = true ↔
      (revision : WithBot Int) ≤ itemHighWater state itemId := by
  unfold journalItemRevisionIsStale itemHighWater highWater itemStore
  rw [le_max_iff, Bool.or_eq_true, or_comm]
  cases state.items.get? itemId <;> cases state.tombstones.get? itemId <;> simp

/-! ## Writes and removals -/

theorem upsertJournalItem_of_stale {itemId : String} {revision : Int}
    (next : AgentJournalRenderItem) (fences : JournalItemFences)
    (stale : (revision : WithBot Int) ≤ itemHighWater state itemId) :
    upsertJournalItem env state itemId revision next fences = state := by
  unfold upsertJournalItem
  rw [if_pos ((journalItemRevisionIsStale_iff state itemId revision).mpr stale)]

theorem upsertJournalItem_store {itemId : String} {revision : Int}
    (next : AgentJournalRenderItem) (fences : JournalItemFences)
    (newer : itemHighWater state itemId < revision) :
    ∃ written, written.revision = next.revision ∧
      (∀ existing, state.items.get? itemId = some existing →
        written = revisedJournalItem env.ordinalOf itemId existing next) ∧
      itemStore (upsertJournalItem env state itemId revision next fences) =
        ⟨state.items.set itemId written, state.tombstones.delete itemId⟩ := by
  have fresh : ¬journalItemRevisionIsStale state itemId revision = true := by
    rw [journalItemRevisionIsStale_iff]
    exact not_le_of_gt newer
  unfold upsertJournalItem
  rw [if_neg fresh]
  cases found : state.items.get? itemId with
  | none => exact ⟨next, rfl, fun existing present => by simp at present, rfl⟩
  | some existing =>
    refine ⟨revisedJournalItem env.ordinalOf itemId existing next, rfl, ?_, rfl⟩
    intro other present
    cases present
    rfl

theorem removeJournalItem_of_stale {itemId : String} {revision : Int}
    (stale : (revision : WithBot Int) ≤ itemHighWater state itemId) :
    removeJournalItem state itemId revision = state := by
  unfold removeJournalItem
  rw [if_pos ((journalItemRevisionIsStale_iff state itemId revision).mpr stale)]

theorem removeJournalItem_store {itemId : String} {revision : Int}
    (newer : itemHighWater state itemId < revision) :
    itemStore (removeJournalItem state itemId revision) =
      ⟨state.items.delete itemId, state.tombstones.set itemId revision⟩ := by
  have fresh : ¬journalItemRevisionIsStale state itemId revision = true := by
    rw [journalItemRevisionIsStale_iff]
    exact not_le_of_gt newer
  unfold removeJournalItem
  rw [if_neg fresh]
  rfl

/-- What one write or removal of a revision does to the items. -/
inductive ItemWrite (revision : Int) (first second : JournalReducerState) : Prop
  | skip (same : itemStore second = itemStore first)
  | upsert (start : JournalReducerState) (itemId : String) (next : AgentJournalRenderItem)
      (fences : JournalItemFences) (before : itemStore start = itemStore first)
      (revised : next.revision = revision)
      (after : itemStore second =
        itemStore (upsertJournalItem env start itemId revision next fences))
  | remove (start : JournalReducerState) (itemId : String)
      (before : itemStore start = itemStore first)
      (after : itemStore second = itemStore (removeJournalItem start itemId revision))

/-- What the settlement of a hand-off does to the items: it may move one bubble. -/
inductive ItemMove (itemId : String) (first second : JournalReducerState) : Prop
  | skip (same : itemStore second = itemStore first)
  | move (start : JournalReducerState) (place : JournalPlace)
      (before : itemStore start = itemStore first)
      (after : itemStore second = itemStore (moveJournalItem start itemId place))

namespace ItemWrite

variable {env} {revision : Int} {first second : JournalReducerState}

theorem itemSteps (write : ItemWrite env revision first second) : ItemSteps first second := by
  rcases write with same | ⟨start, itemId, next, fences, before, revised, after⟩ |
    ⟨start, itemId, before, after⟩
  · exact .of_eq same
  · unfold ItemSteps
    rw [after, ← before]
    by_cases stale : (revision : WithBot Int) ≤ itemHighWater start itemId
    · rw [upsertJournalItem_of_stale env start next fences stale]
      exact Steps.refl _
    · rcases upsertJournalItem_store env start next fences (lt_of_not_ge stale) with
        ⟨written, sameRevision, _, stored⟩
      rw [stored]
      refine Step.steps (Step.write itemId written ?_)
      rw [sameRevision, revised]
      exact lt_of_not_ge stale
  · unfold ItemSteps
    rw [after, ← before]
    by_cases stale : (revision : WithBot Int) ≤ itemHighWater start itemId
    · rw [removeJournalItem_of_stale start stale]
      exact Steps.refl _
    · rw [removeJournalItem_store start (lt_of_not_ge stale)]
      exact Step.steps (Step.remove itemId revision (lt_of_not_ge stale))

/-- A revision an item already had leaves that item, and its tombstone, as they are. -/
theorem kept_of_stale (write : ItemWrite env revision first second) {itemId : String}
    (stale : (revision : WithBot Int) ≤ itemHighWater first itemId) :
    second.items.get? itemId = first.items.get? itemId ∧
      second.tombstones.get? itemId = first.tombstones.get? itemId := by
  have parts {left right : JournalReducerState} (same : itemStore left = itemStore right) :
      left.items = right.items ∧ left.tombstones = right.tombstones :=
    ⟨congrArg RevisionedStore.live same, congrArg RevisionedStore.tombstones same⟩
  have highWater {left right : JournalReducerState} (same : itemStore left = itemStore right) :
      itemHighWater left itemId = itemHighWater right itemId := by
    unfold itemHighWater
    rw [same]
  rcases write with same | ⟨start, target, next, fences, before, revised, after⟩ |
    ⟨start, target, before, after⟩
  · rw [(parts same).1, (parts same).2]
    exact ⟨rfl, rfl⟩
  · rw [← (parts before).1, ← (parts before).2]
    by_cases old : (revision : WithBot Int) ≤ itemHighWater start target
    · rw [upsertJournalItem_of_stale env start next fences old] at after
      rw [(parts after).1, (parts after).2]
      exact ⟨rfl, rfl⟩
    · have apart : itemId ≠ target := by
        rintro rfl
        exact old (by rwa [highWater before])
      rcases upsertJournalItem_store env start next fences (lt_of_not_ge old) with
        ⟨written, _, _, stored⟩
      have result := after.trans stored
      have live : second.items = start.items.set target written :=
        congrArg RevisionedStore.live result
      have removed : second.tombstones = start.tombstones.delete target :=
        congrArg RevisionedStore.tombstones result
      rw [live, removed]
      simp [apart]
  · rw [← (parts before).1, ← (parts before).2]
    by_cases old : (revision : WithBot Int) ≤ itemHighWater start target
    · rw [removeJournalItem_of_stale start old] at after
      rw [(parts after).1, (parts after).2]
      exact ⟨rfl, rfl⟩
    · have apart : itemId ≠ target := by
        rintro rfl
        exact old (by rwa [highWater before])
      have result := after.trans (removeJournalItem_store start (lt_of_not_ge old))
      have live : second.items = start.items.delete target :=
        congrArg RevisionedStore.live result
      have removed : second.tombstones = start.tombstones.set target revision :=
        congrArg RevisionedStore.tombstones result
      rw [live, removed]
      simp [apart]

end ItemWrite

namespace ItemMove

variable {itemId : String} {first second : JournalReducerState}

theorem itemSteps (moves : ItemMove itemId first second) : ItemSteps first second := by
  rcases moves with same | ⟨start, place, before, after⟩
  · exact .of_eq same
  · unfold ItemSteps
    rw [after, ← before]
    unfold moveJournalItem
    split
    · exact Steps.refl _
    case h_2 item found => exact Step.steps (Step.adjust itemId item _ found rfl)

theorem of_itemStore_eq {origin : JournalReducerState} (moves : ItemMove itemId first second)
    (same : itemStore first = itemStore origin) : ItemMove itemId origin second := by
  rcases moves with unmoved | ⟨start, place, before, after⟩
  · exact .skip (unmoved.trans same)
  · exact .move start place (before.trans same) after

theorem kept_of_ne (moves : ItemMove itemId first second) {other : String}
    (apart : other ≠ itemId) : second.items.get? other = first.items.get? other := by
  rcases moves with same | ⟨start, place, before, after⟩
  · rw [show second.items = first.items from congrArg RevisionedStore.live same]
  · have live : second.items = (moveJournalItem start itemId place).items :=
      congrArg RevisionedStore.live after
    rw [live, show first.items = start.items from (congrArg RevisionedStore.live before).symm]
    unfold moveJournalItem
    split
    · rfl
    · exact JsMap.get?_set_of_ne _ _ apart

end ItemMove

/-! ## Rows that write -/

theorem applyJournalItemRow_write (row : JournalRowBase) (savedAt : Int)
    (content : JournalItemContent) :
    ItemWrite env content.revision state
      (applyJournalItemRow env state row savedAt content) := by
  unfold applyJournalItemRow
  split
  · exact .skip rfl
  · exact .upsert (claimJournalItem env state row content).1 _ _ _ (by simp) rfl
      (observeJournalProviderActivity_frame ..).1

def JournalLifecycleMutation.revision : JournalLifecycleMutation → Int
  | .item content _ _ _ => content.revision
  | .tombstone _ revision => revision

theorem applyJournalLifecycleMutation_write (row : JournalRowBase) (savedAt : Int)
    (indexed : JournalLifecycleMutation × Nat) :
    ItemWrite env indexed.1.revision state
      (applyJournalLifecycleMutation env row savedAt state indexed) := by
  rcases indexed with ⟨⟨content, producer, turnScope, observedAt⟩ | ⟨itemId, revision⟩, index⟩
  · unfold applyJournalLifecycleMutation
    dsimp only
    split
    · exact .skip rfl
    · exact .upsert (claimJournalItem env state row content).1 _ _ _ (by simp) rfl
        (observeJournalProviderActivity_frame ..).1
  · exact .remove state _ rfl rfl

theorem applyJournalTombstoneRow_write (row : JournalRowBase)
    (content : JournalTombstoneContent) :
    ItemWrite env content.revision state (applyJournalTombstoneRow env state row content) := by
  unfold applyJournalTombstoneRow
  split
  · exact .skip rfl
  · refine .remove state (resolveAlias state content.itemId) rfl ?_
    split <;> simp

theorem applyJournalSubmission_write (row : JournalRowBase)
    (content : JournalSubmissionContent) :
    ItemWrite env 0 state (applyJournalSubmission env state row content) :=
  .upsert
    { state with
      submissions := state.submissions.set content.clientMessageId
        (submittedJournalSubmission env row content) } _ _ _ rfl rfl rfl

/-! ## Rows that settle a hand-off -/

theorem foldQueuedHandOffInDoubt_move (clientMessageId : String)
    (submission : AgentJournalSubmission) :
    ItemMove (agentJournalSubmissionKey submission.clientMessageId) state
      (foldQueuedHandOffInDoubt state clientMessageId submission) := by
  unfold foldQueuedHandOffInDoubt
  dsimp only
  split
  · exact .skip rfl
  · exact .move
      { state with
        normalizedHandOffs := addOnce state.normalizedHandOffs submission.clientMessageId }
      _ rfl rfl

theorem settleDispatchedMessage_move (submission : AgentJournalSubmission)
    (row : JournalRowBase) (content : JournalDispatchContent) :
    ItemMove (agentJournalSubmissionKey submission.clientMessageId) state
        (settleDispatchedMessage state submission row content) ∧
      (content.state ≠ .pending → content.state ≠ .rejected →
        itemStore (settleDispatchedMessage state submission row content) = itemStore state) := by
  unfold settleDispatchedMessage
  cases content.state with
  | pending =>
    refine ⟨?_, fun apart => absurd rfl apart⟩
    dsimp only
    unfold placeHandedOverMessage
    split
    · split
      · exact .skip rfl
      · exact .move state _ rfl rfl
    · exact .skip rfl
  | rejected =>
    exact ⟨.move state ⟨row.seq, row.ts, .thread⟩ rfl rfl, fun _ apart => absurd rfl apart⟩
  | accepted =>
    dsimp only
    split <;> exact ⟨.skip rfl, fun _ _ => rfl⟩
  | unknown => exact ⟨.skip rfl, fun _ _ => rfl⟩

theorem settleHandOffInDoubt_move (linked : ∀ clientMessageId submission,
      state.submissions.get? clientMessageId = some submission →
        submission.clientMessageId = clientMessageId) (clientMessageId : String) :
    ItemMove (agentJournalSubmissionKey clientMessageId) state
      (settleHandOffInDoubt state clientMessageId) := by
  unfold settleHandOffInDoubt
  cases found : state.submissions.get? clientMessageId with
  | none => exact .skip rfl
  | some submission =>
    dsimp only
    split
    · have moved := foldQueuedHandOffInDoubt_move state clientMessageId submission
      rwa [linked _ _ found] at moved
    · exact .skip rfl

/-- A dispatch row moves the bubble of its own submission, when it hands it over or
refuses it, and no other item. -/
theorem applyJournalRow_dispatch_items (linked : JournalLinked state) (base : JournalRowBase)
    (content : JournalDispatchContent) :
    ∃ middle,
      ItemMove (agentJournalSubmissionKey content.clientMessageId) state middle ∧
      ItemMove (agentJournalSubmissionKey content.clientMessageId) middle
        (applyJournalRow env state ⟨base, .dispatch content⟩) ∧
      (content.state ≠ .pending → content.state ≠ .rejected →
        itemStore (applyJournalRow env state ⟨base, .dispatch content⟩) = itemStore state) := by
  have noted := linked.noteJournalActivity base
  have unfolded : applyJournalRow env state ⟨base, .dispatch content⟩ =
      settleDispatchedCard
        (applyJournalDispatchRow env (noteJournalActivity state base) base content)
        content.clientMessageId := rfl
  rw [unfolded]
  by_cases settled : ∀ submission,
      state.submissions.get? content.clientMessageId = some submission →
        journalDispatchRowApplies submission = false
  · have ignored : applyJournalDispatchRow env (noteJournalActivity state base) base content =
        noteJournalActivity state base := applyJournalDispatchRow_of_settled env base settled
    rw [ignored, settleDispatchedCard_of_settled noted settled]
    exact ⟨state, .skip rfl, .skip rfl, fun _ _ => rfl⟩
  · simp only [not_forall, Bool.not_eq_false] at settled
    obtain ⟨submission, found, applies⟩ := settled
    have named : submission.clientMessageId = content.clientMessageId :=
      linked.submissionKeys _ _ found
    have present : (noteJournalActivity state base).submissions.get? content.clientMessageId =
        some submission := found
    have written := applyJournalDispatchRow_of_applies env base present applies
    have moved : ItemMove (agentJournalSubmissionKey content.clientMessageId) state
          (applyJournalDispatchRow env (noteJournalActivity state base) base content) ∧
        (content.state ≠ .pending → content.state ≠ .rejected →
          itemStore (applyJournalDispatchRow env (noteJournalActivity state base) base content) =
            itemStore state) := by
      unfold applyJournalDispatchRow
      rw [present]
      dsimp only
      rw [if_pos applies]
      have settles := settleDispatchedMessage_move
        { noteJournalActivity state base with
          submissions := (noteJournalActivity state base).submissions.set
            content.clientMessageId (dispatchedSubmission env submission base content) }
        (dispatchedSubmission env submission base content) base content
      rw [(dispatchedSubmission_ids env submission base content).1, named] at settles
      exact ⟨settles.1.of_itemStore_eq rfl, fun early late => settles.2 early late⟩
    generalize applyJournalDispatchRow env (noteJournalActivity state base) base content =
      facts at written moved
    have stored : facts.submissions.get? content.clientMessageId =
        some (dispatchedSubmission env submission base content) := by
      rw [written.1, JsMap.get?_set_self]
    rcases settleDispatchedCard_cases stored with
      ⟨same, _⟩ | ⟨_, _, _, rejected, _, same⟩ | ⟨_, _, rejected, _, same⟩
    · rw [same]
      exact ⟨facts, moved.1, .skip rfl, moved.2⟩
    · rw [same]
      exact ⟨facts, moved.1, .skip rfl, fun _ apart => absurd rejected apart⟩
    · rw [same]
      have doubtful := foldQueuedHandOffInDoubt_move facts content.clientMessageId
        (dispatchedSubmission env submission base content)
      rw [(dispatchedSubmission_ids env submission base content).1, named] at doubtful
      exact ⟨facts, moved.1, doubtful, fun _ apart => absurd rejected apart⟩

/-- A queue row moves a bubble only when it settles that submission's own hand-off. -/
theorem applyJournalRow_queue_items (linked : JournalLinked state) (base : JournalRowBase)
    (messageId : String) (change : JournalQueueChange) :
    itemStore (applyJournalRow env state ⟨base, .queue messageId change⟩) = itemStore state ∨
      ∃ queued attempt submission,
        change = .queued queued ∧ queued.attempt = some attempt ∧
        state.submissions.get? attempt = some submission ∧
        submission.dispatchState = .rejected ∧
        queuedHandOffOutcome submission = .inDoubt ∧
        ItemMove (agentJournalSubmissionKey attempt) state
          (applyJournalRow env state ⟨base, .queue messageId change⟩) := by
  have unfolded : applyJournalRow env state ⟨base, .queue messageId change⟩ =
      applyQueueRow env (noteJournalRow state base) messageId change := rfl
  rw [unfolded]
  cases change with
  | queued queued =>
    simp only [applyQueueRow, applyQueuedChange]
    split
    case h_2 => exact Or.inl rfl
    case h_1 attempt consumed =>
      have stated := queuedCardFromChange_consumedAs env consumed
      generalize queuedCardFromChange env (noteJournalRow state base) messageId queued = card
      cases found : state.submissions.get? attempt with
      | none =>
        refine Or.inl ?_
        have absent : (setCard (noteJournalRow state base) card).submissions.get? attempt =
            none := found
        rw [settleHandOffInDoubt_of_absent absent]
        rfl
      | some submission =>
        have present : (setCard (noteJournalRow state base) card).submissions.get? attempt =
            some submission := found
        by_cases doubt : submission.dispatchState = .rejected ∧
            queuedHandOffOutcome submission = .inDoubt
        · refine Or.inr ⟨queued, attempt, submission, rfl, stated, found, doubt.1,
            doubt.2, ?_⟩
          exact (settleHandOffInDoubt_move (setCard (noteJournalRow state base) card)
            linked.submissionKeys attempt).of_itemStore_eq rfl
        · refine Or.inl ?_
          rw [settleHandOffInDoubt_of_not_rejected present fun rejected same =>
            doubt ⟨rejected, same⟩]
          rfl
  | _ =>
    exact Or.inl (applyQueueRow_of_edit env (noteJournalRow state base) messageId
      (by simp)).1

/-! ## Positions -/

/-- An item keeps its place, its time, and the turn it once had. -/
def SamePosition (before after : AgentJournalRenderItem) : Prop :=
  after.sequence = before.sequence ∧ after.sequenceIndex = before.sequenceIndex ∧
    after.observedAt = before.observedAt ∧
    (before.turnScope.isSome = true → after.turnScope = before.turnScope)

theorem SamePosition.refl (item : AgentJournalRenderItem) : SamePosition item item :=
  ⟨rfl, rfl, rfl, fun _ => rfl⟩

theorem SamePosition.trans {first second third : AgentJournalRenderItem}
    (early : SamePosition first second) (late : SamePosition second third) :
    SamePosition first third := by
  obtain ⟨sequence, index, observed, scope⟩ := early
  obtain ⟨sequence', index', observed', scope'⟩ := late
  refine ⟨sequence'.trans sequence, index'.trans index, observed'.trans observed, fun once => ?_⟩
  have kept := scope once
  rw [← kept]
  exact scope' (by rw [kept]; exact once)

theorem revisedJournalItem_samePosition (ordinalOf : String → Option Nat) (itemId : String)
    (existing next : AgentJournalRenderItem) :
    SamePosition existing (revisedJournalItem ordinalOf itemId existing next) := by
  refine ⟨rfl, rfl, rfl, fun once => ?_⟩
  obtain ⟨scope, present⟩ := Option.isSome_iff_exists.mp once
  simp [revisedJournalItem, present]

/-- While an item is live on both sides, it has the same position there. -/
def KeepsPosition (itemId : String) (first second : JournalReducerState) : Prop :=
  ∀ before after, first.items.get? itemId = some before →
    second.items.get? itemId = some after → SamePosition before after

theorem KeepsPosition.of_eq {itemId : String} {first second : JournalReducerState}
    (same : second.items.get? itemId = first.items.get? itemId) :
    KeepsPosition itemId first second := by
  intro before after old new
  rw [same, old] at new
  cases new
  exact .refl before

theorem KeepsPosition.of_items_eq {itemId : String} {first second third : JournalReducerState}
    (kept : KeepsPosition itemId first second) (same : third.items = second.items) :
    KeepsPosition itemId first third := by
  intro before after old new
  rw [same] at new
  exact kept before after old new

theorem ItemWrite.keepsPosition {revision : Int} {first second : JournalReducerState}
    (write : ItemWrite env revision first second) (itemId : String) :
    KeepsPosition itemId first second := by
  by_cases stale : (revision : WithBot Int) ≤ itemHighWater first itemId
  · exact .of_eq (write.kept_of_stale stale).1
  · rcases write with same | ⟨start, target, next, fences, before, revised, after⟩ |
      ⟨start, target, before, after⟩
    · exact .of_eq (by rw [show second.items = first.items from congrArg RevisionedStore.live same])
    · have origin : start.items = first.items := congrArg RevisionedStore.live before
      by_cases old : (revision : WithBot Int) ≤ itemHighWater start target
      · rw [upsertJournalItem_of_stale env start next fences old, before] at after
        exact .of_eq (by
          rw [show second.items = first.items from congrArg RevisionedStore.live after])
      · rcases upsertJournalItem_store env start next fences (lt_of_not_ge old) with
          ⟨written, _, revises, stored⟩
        have live : second.items = start.items.set target written :=
          congrArg RevisionedStore.live (after.trans stored)
        intro existing result present found
        rw [live, origin, JsMap.get?_set] at found
        split at found
        case isTrue here =>
          subst here
          cases found
          rw [revises existing (by rw [origin]; exact present)]
          exact revisedJournalItem_samePosition env.ordinalOf itemId existing next
        case isFalse =>
          rw [present] at found
          cases found
          exact .refl existing
    · have origin : start.items = first.items := congrArg RevisionedStore.live before
      by_cases old : (revision : WithBot Int) ≤ itemHighWater start target
      · rw [removeJournalItem_of_stale start old, before] at after
        exact .of_eq (by
          rw [show second.items = first.items from congrArg RevisionedStore.live after])
      · have live : second.items = start.items.delete target :=
          congrArg RevisionedStore.live
            (after.trans (removeJournalItem_store start (lt_of_not_ge old)))
        intro existing result present found
        rw [live, origin, JsMap.get?_delete] at found
        split at found
        · cases found
        · rw [present] at found
          cases found
          exact .refl existing

theorem KeepsPosition.trans {itemId : String} {first second third : JournalReducerState}
    (early : KeepsPosition itemId first second) (late : KeepsPosition itemId second third)
    (live : (second.items.get? itemId).isSome = true) : KeepsPosition itemId first third := by
  intro before after old new
  obtain ⟨middle, present⟩ := Option.isSome_iff_exists.mp live
  exact (early before middle old present).trans (late middle after present new)

/-! ## Whole rows -/

/-- The revision a row itself carries; a submission row writes revision 0. -/
def JournalRowContent.writtenRevision : JournalRowContent → Option Int
  | .item content => some content.revision
  | .tombstone content => some content.revision
  | .submission _ => some 0
  | .epoch _ | .dispatch _ | .lifecycleBatch _ _ | .queue _ _ => none

theorem applyJournalRow_write (row : JournalRow) {revision : Int}
    (written : row.content.writtenRevision = some revision) :
    ItemWrite env revision state (applyJournalRow env state row) := by
  rcases row with ⟨base, content⟩
  have from_noted {next : JournalReducerState}
      (write : ItemWrite env revision (noteJournalActivity state base) next)
      (same : itemStore (foldJournalQueueRow env next ⟨base, content⟩) = itemStore next) :
      ItemWrite env revision state (foldJournalQueueRow env next ⟨base, content⟩) := by
    rcases write with skip | ⟨start, itemId, item, fences, before, revised, after⟩ |
      ⟨start, itemId, before, after⟩
    · exact .skip (same.trans skip)
    · exact .upsert start itemId item fences before revised (same.trans after)
    · exact .remove start itemId before (same.trans after)
  cases content with
  | item content =>
    cases written
    exact from_noted (applyJournalItemRow_write env _ base base.ts content)
      (by simp [foldJournalQueueRow])
  | tombstone content =>
    cases written
    exact from_noted (applyJournalTombstoneRow_write env _ base content) rfl
  | submission content =>
    cases written
    exact from_noted (applyJournalSubmission_write env _ base content)
      (by simp [foldJournalQueueRow])
  | epoch _ => cases written
  | dispatch _ => cases written
  | lifecycleBatch _ _ => cases written
  | queue _ _ => cases written

/-- Every row is a sequence of steps of the item store. -/
theorem applyJournalRow_itemSteps (linked : JournalLinked state) (row : JournalRow) :
    ItemSteps state (applyJournalRow env state row) := by
  rcases row with ⟨base, content⟩
  cases content with
  | epoch content => exact .of_eq rfl
  | item content => exact (applyJournalRow_write env state ⟨base, _⟩ rfl).itemSteps
  | tombstone content => exact (applyJournalRow_write env state ⟨base, _⟩ rfl).itemSteps
  | submission content => exact (applyJournalRow_write env state ⟨base, _⟩ rfl).itemSteps
  | dispatch content =>
    rcases applyJournalRow_dispatch_items env state linked base content with
      ⟨middle, early, late, _⟩
    exact early.itemSteps.trans late.itemSteps
  | lifecycleBatch settlementId mutations =>
    refine ItemSteps.trans ?_ (.of_eq (spendReportedCommandCards_frame
      (applyJournalLifecycleBatch env (noteJournalActivity state base) base base.ts
        settlementId mutations)).1)
    unfold applyJournalLifecycleBatch
    split
    · exact .of_eq rfl
    · have folded : ItemSteps (noteJournalActivity state base)
          (mutations.zipIdx.foldl (applyJournalLifecycleMutation env base base.ts)
            (noteJournalActivity state base)) :=
        foldl_relates (fun _ => .of_eq rfl) .trans
          (fun start indexed =>
            (applyJournalLifecycleMutation_write env start base base.ts indexed).itemSteps) _ _
      generalize mutations.zipIdx.foldl (applyJournalLifecycleMutation env base base.ts)
        (noteJournalActivity state base) = settled at folded ⊢
      exact folded.trans (.of_eq (itemStore_congr rfl rfl))
  | queue messageId change =>
    rcases applyJournalRow_queue_items env state linked base messageId change with
      same | ⟨_, _, _, _, _, _, _, _, moves⟩
    · exact .of_eq same
    · exact moves.itemSteps

/-- The states a batch passes through, one after each of its mutations. -/
def journalBatchMoments (row : JournalRow) : List JournalReducerState :=
  match row.content with
  | .lifecycleBatch settlementId mutations =>
    if settlementId ∈ state.appliedSettlementIds then []
    else
      mutations.zipIdx.scanl (applyJournalLifecycleMutation env row.base row.base.ts)
        (noteJournalActivity state row.base)
  | _ => []

/-- The item is live throughout a row: at every moment of a batch. -/
def StaysLive (row : JournalRow) (itemId : String) : Prop :=
  ∀ moment ∈ journalBatchMoments env state row, (moment.items.get? itemId).isSome = true

/-- A dispatch row that hands over or refuses the item's own submission, or a queue row
that settles its hand-off as doubtful. -/
def SettlesOwnHandOff (row : JournalRow) (itemId : String) : Prop :=
  (∃ content, row.content = .dispatch content ∧
    (content.state = .pending ∨ content.state = .rejected) ∧
    itemId = agentJournalSubmissionKey content.clientMessageId) ∨
  ∃ messageId queued attempt submission,
    row.content = .queue messageId (.queued queued) ∧ queued.attempt = some attempt ∧
    state.submissions.get? attempt = some submission ∧
    submission.dispatchState = .rejected ∧ queuedHandOffOutcome submission = .inDoubt ∧
    itemId = agentJournalSubmissionKey attempt

theorem foldl_mutations_keepsPosition (row : JournalRowBase) (savedAt : Int) (itemId : String)
    (mutations : List (JournalLifecycleMutation × Nat))
    (live : ∀ moment ∈ mutations.scanl (applyJournalLifecycleMutation env row savedAt) state,
      (moment.items.get? itemId).isSome = true) :
    KeepsPosition itemId state
      (mutations.foldl (applyJournalLifecycleMutation env row savedAt) state) := by
  induction mutations generalizing state with
  | nil => exact .of_eq rfl
  | cons mutation rest ih =>
    rw [List.scanl_cons] at live
    have later := fun moment member => live moment (List.mem_cons_of_mem _ member)
    have first : (applyJournalLifecycleMutation env row savedAt state mutation) ∈
        rest.scanl (applyJournalLifecycleMutation env row savedAt)
          (applyJournalLifecycleMutation env row savedAt state mutation) := by
      cases rest <;> simp
    exact ((applyJournalLifecycleMutation_write env state row savedAt
      mutation).keepsPosition env itemId).trans (ih _ later) (later _ first)

/-- A live item moves only when a row settles its own hand-off. -/
theorem applyJournalRow_keepsPosition (linked : JournalLinked state) (row : JournalRow)
    (itemId : String) (live : StaysLive env state row itemId) :
    KeepsPosition itemId state (applyJournalRow env state row) ∨
      SettlesOwnHandOff state row itemId := by
  rcases row with ⟨base, content⟩
  cases content with
  | epoch content => exact Or.inl (.of_eq rfl)
  | item content =>
    exact Or.inl ((applyJournalRow_write env state ⟨base, _⟩ rfl).keepsPosition env itemId)
  | tombstone content =>
    exact Or.inl ((applyJournalRow_write env state ⟨base, _⟩ rfl).keepsPosition env itemId)
  | submission content =>
    exact Or.inl ((applyJournalRow_write env state ⟨base, _⟩ rfl).keepsPosition env itemId)
  | dispatch content =>
    rcases applyJournalRow_dispatch_items env state linked base content with
      ⟨middle, early, late, settled⟩
    by_cases own : itemId = agentJournalSubmissionKey content.clientMessageId
    · by_cases moves : content.state = .pending ∨ content.state = .rejected
      · exact Or.inr (Or.inl ⟨content, rfl, moves, own⟩)
      · rw [not_or] at moves
        exact Or.inl (.of_eq (congrArg (fun store => store.live.get? itemId)
          (settled moves.1 moves.2)))
    · exact Or.inl (.of_eq ((late.kept_of_ne own).trans (early.kept_of_ne own)))
  | lifecycleBatch settlementId mutations =>
    refine Or.inl ?_
    have reported := (spendReportedCommandCards_frame
      (applyJournalLifecycleBatch env (noteJournalActivity state base) base base.ts
        settlementId mutations)).1
    have sameItems : (applyJournalRow env state
        ⟨base, .lifecycleBatch settlementId mutations⟩).items =
        (applyJournalLifecycleBatch env (noteJournalActivity state base) base base.ts
          settlementId mutations).items := congrArg RevisionedStore.live reported
    refine KeepsPosition.of_items_eq ?_ sameItems
    by_cases applied : settlementId ∈ state.appliedSettlementIds
    · refine .of_eq ?_
      unfold applyJournalLifecycleBatch
      rw [if_pos (show settlementId ∈
        (noteJournalActivity state base).appliedSettlementIds from applied)]
      rfl
    · have kept : KeepsPosition itemId state
          (mutations.zipIdx.foldl (applyJournalLifecycleMutation env base base.ts)
            (noteJournalActivity state base)) := by
        refine foldl_mutations_keepsPosition env (noteJournalActivity state base) base base.ts
          itemId mutations.zipIdx fun moment member => live moment ?_
        unfold journalBatchMoments
        dsimp only
        rw [if_neg applied]
        exact member
      refine kept.of_items_eq ?_
      unfold applyJournalLifecycleBatch
      rw [if_neg (show ¬settlementId ∈
        (noteJournalActivity state base).appliedSettlementIds from applied)]
  | queue messageId change =>
    rcases applyJournalRow_queue_items env state linked base messageId change with
      same | ⟨queued, attempt, submission, rfl, named, found, rejected, doubt, moves⟩
    · exact Or.inl (.of_eq (congrArg (fun store => store.live.get? itemId) same))
    · by_cases own : itemId = agentJournalSubmissionKey attempt
      · exact Or.inr (Or.inr ⟨messageId, queued, attempt, submission, rfl, named, found,
          rejected, doubt, own⟩)
      · exact Or.inl (.of_eq (moves.kept_of_ne own))

theorem replayJournal_itemSteps (sessionId epoch : String) (rows : List JournalRow) :
    ItemSteps (createJournalReducerState sessionId epoch)
      (replayJournal env sessionId epoch rows) := by
  induction rows using List.reverseRecOn with
  | nil => exact .of_eq rfl
  | append_singleton rows row ih =>
    rw [replayJournal_snoc]
    exact ih.trans (applyJournalRow_itemSteps env _
      (JournalLinked.replayJournal env sessionId epoch rows) row)

/-- Replaying a journal never resurrects or regresses an item. -/
theorem journal_replay_keeps_item_history (sessionId epoch : String) (rows : List JournalRow)
    (row : JournalRow) (itemId : String) :
    let before := replayJournal env sessionId epoch rows
    let after := replayJournal env sessionId epoch (rows ++ [row])
    (after.items.get? itemId = none ∨ after.tombstones.get? itemId = none) ∧
    itemHighWater before itemId ≤ itemHighWater after itemId ∧
    (∀ revision : Int, row.content.writtenRevision = some revision →
      (revision : WithBot Int) ≤ itemHighWater before itemId →
      after.items.get? itemId = before.items.get? itemId ∧
        after.tombstones.get? itemId = before.tombstones.get? itemId) ∧
    (∀ settlementId mutations early indexed late,
      row.content = .lifecycleBatch settlementId mutations →
      mutations.zipIdx = early ++ indexed :: late →
      let moment := early.foldl (applyJournalLifecycleMutation env row.base row.base.ts)
        (noteJournalActivity before row.base)
      let next := applyJournalLifecycleMutation env row.base row.base.ts moment indexed
      (indexed.1.revision : WithBot Int) ≤ itemHighWater moment itemId →
      next.items.get? itemId = moment.items.get? itemId ∧
        next.tombstones.get? itemId = moment.tombstones.get? itemId) ∧
    (StaysLive env before row itemId →
      KeepsPosition itemId before after ∨ SettlesOwnHandOff before row itemId) := by
  intro before after
  have linked : JournalLinked before := JournalLinked.replayJournal env sessionId epoch rows
  have stepped : after = applyJournalRow env before row :=
    replayJournal_snoc env sessionId epoch rows row
  refine ⟨?_, ?_, ?_, ?_, ?_⟩
  · exact (replayJournal_itemSteps env sessionId epoch (rows ++ [row])).exclusive
      (fun _ => Or.inl rfl) itemId
  · rw [stepped]
    exact (applyJournalRow_itemSteps env before linked row).highWater_le itemId
  · intro revision written stale
    rw [stepped]
    exact (applyJournalRow_write env before row written).kept_of_stale stale
  · intro settlementId mutations early indexed late _ _ moment next stale
    exact (applyJournalLifecycleMutation_write env moment row.base row.base.ts
      indexed).kept_of_stale stale
  · intro live
    rw [stepped]
    exact applyJournalRow_keepsPosition env before linked row itemId live

end OxeeUI.Journal
