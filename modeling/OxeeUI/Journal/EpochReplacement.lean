import OxeeUI.Journal.Reducer

/-!
# Queue pauses

Pauses are derived from the journal's marks: a person's Stop, cleared message ids, and cards
older than a reopen.  Later accepted turns and Resume lift them; a card's own hold does not
follow from them.
-/

namespace OxeeUI.Journal

open OxeeUI.Library

inductive QueuePauseReason where
  | stopped | cleared | restarted
deriving DecidableEq

structure DerivedQueuePause where
  reason : QueuePauseReason
  since : Option AgentJournalCursor
  /-- A clear holds exact ids; other pauses use the cursor boundary. -/
  messageIds : Option (List String)

namespace JournalQueuePauseMarks

variable (marks : JournalQueuePauseMarks) (latestAcceptedTurnSequence : Nat)

/-- Any later Stop supersedes a personal pause; only personal Stops create one. -/
def journalQueueStopHolds : Bool :=
  marks.latestStop.any fun stop =>
    stop.2.member "reason" = .string "user-stop" &&
      max latestAcceptedTurnSequence marks.resumedSequence < stop.1

def journalUserStopInForce : Option (Nat × JsValue) :=
  if marks.journalQueueStopHolds latestAcceptedTurnSequence then marks.latestStop else none

end JournalQueuePauseMarks

structure QueuePauseInput where
  epoch : String
  marks : JournalQueuePauseMarks
  latestAcceptedTurnSequence : Nat
  cards : List QueuedMessageRow
  /-- The boundary of a handle that could not write a reopen mark. -/
  reopenFloor : Option AgentJournalCursor

namespace QueuePauseInput

variable (input : QueuePauseInput)

def waiting : List QueuedMessageRow := input.cards.filter fun card => card.state = .waiting

/-- The sequence that lifts every pause before it. -/
def liftedSequence : Nat := max input.latestAcceptedTurnSequence input.marks.resumedSequence

def stopPause : Option DerivedQueuePause :=
  (input.marks.journalUserStopInForce input.latestAcceptedTurnSequence).map fun stop =>
    ⟨.stopped, some ⟨input.epoch, stop.1⟩, none⟩

def clearPause : Option DerivedQueuePause :=
  match input.marks.cleared with
  | none => none
  | some cleared =>
    if !cleared.lifted && input.liftedSequence < cleared.sequence then
      let messageIds := (input.waiting.map (·.messageId)).filter fun messageId =>
        messageId ≠ "" ∧ messageId ∈ cleared.messageIds
      if messageIds.isEmpty then none
      else some ⟨.cleared, some ⟨input.epoch, cleared.sequence⟩, some messageIds⟩
    else none

/-- A failed mark uses the open boundary; a later turn or Resume lifts it. -/
def reopenPause : Option DerivedQueuePause :=
  let floor := match input.reopenFloor with
    | none => 0
    | some floor => if floor.epoch = input.epoch then floor.sequence else 0
  let sequence := max input.marks.reopenedSequence floor
  if sequence = 0 then none
  else if sequence ≤ input.liftedSequence then none
  else some ⟨.restarted, some ⟨input.epoch, sequence⟩, none⟩

end QueuePauseInput

/-- Whether the card was queued before the boundary of the pause; sequences compare only within
one epoch. -/
def queuedBefore (pause : DerivedQueuePause) (card : QueuedMessageRow) : Bool :=
  if pause.reason = .cleared then pause.messageIds.any fun ids => card.messageId ∈ ids
  else
    match pause.since, card.queuedAt with
    | none, _ => true
    | _, none => true
    | some since, some queuedAt =>
      queuedAt.epoch ≠ since.epoch || queuedAt.sequence < since.sequence

/-- The order of the pauses determines which reason a card held by several shows. -/
def deriveQueuePauses (input : QueuePauseInput) : List DerivedQueuePause :=
  let reopened := input.reopenPause.filter fun reopened =>
    input.waiting.any fun card => card.holdReason.isNone && queuedBefore reopened card
  input.stopPause.toList ++ input.clearPause.toList ++ reopened.toList

/-- Drain, consume and publication share this choice; an empty Stop cannot hide a restart. -/
def queuePauseHolding (pauses : List DerivedQueuePause) (card : QueuedMessageRow) :
    Option DerivedQueuePause :=
  if card.state ≠ .waiting ∨ card.holdReason ≠ none then none
  else pauses.find? fun pause => queuedBefore pause card

/-! ## Restating the pauses in another epoch -/

structure QueueClearRestatement where
  operationId : String
  messageIds : List String
  lifted : Bool

/-- The lift is restated first, so that it cannot erase an active Stop or reopen. -/
structure JournalQueuePauseRestatement where
  lifted : Bool
  liveStop : Option JsValue
  reopened : Bool
  cleared : Option QueueClearRestatement

def journalQueuePauseRestatement (marks : JournalQueuePauseMarks)
    (latestAcceptedTurnSequence : Nat) (pauses : List DerivedQueuePause) :
    JournalQueuePauseRestatement where
  lifted := 0 < latestAcceptedTurnSequence || 0 < marks.resumedSequence
  liveStop := (marks.journalUserStopInForce latestAcceptedTurnSequence).map Prod.snd
  reopened := pauses.any fun pause => pause.reason = .restarted
  cleared := marks.cleared.map fun cleared =>
    { operationId := cleared.operationId
      messageIds :=
        ((pauses.find? fun pause => pause.reason = .cleared).bind (·.messageIds)).getD []
      lifted := cleared.lifted ||
        cleared.sequence ≤ max latestAcceptedTurnSequence marks.resumedSequence }

end OxeeUI.Journal

/-!
## Replacing the epoch of a journal

A rewind writes the journal anew: the replacement items, the cards the queue retains, the
submissions no one has handed over, and then the marks that restate the queue's pauses.  Sequences
start again, so the marks hold by the order they are written in.
-/

namespace OxeeUI.Journal

open OxeeUI.Library

/-! ## What the queue retains -/

/-- Accepted but not handed over proves unwritten; only delivery or rejection can follow. -/
def isQueuedAgentJournalSubmission (submission : AgentJournalSubmission) : Bool :=
  submission.handoverRecorded && submission.dispatchState = .pending &&
    submission.handedOverAt.isNone

def storedRejection (fact : UnreadAgentSessionFailureFact) : JsValue :=
  let details := match fact.details with
    | .object members => members
    | _ => []
  .object ([("kind", .string fact.kind)] ++
    (if fact.neverReachedAgent then [("neverReachedAgent", .boolean true)] else []) ++ details)

def queuedChangeOf (card : QueuedMessageRow) : JournalQueuedChange where
  body := card.body
  position := card.position
  queuedAt := card.queuedAt
  holdReason := none
  options := card.options.getD .undefined
  attempt := none
  returned := none

def retainedChange (card : QueuedMessageRow) : JournalQueuedChange :=
  let change := queuedChangeOf card
  match card.state with
  | .waiting => { change with holdReason := card.holdReason }
  | .returned =>
    { change with
      attempt := card.consumedAs
      returned := some (card.returnedReason,
        (card.returnedRejection.map storedRejection).getD .undefined) }
  | .dispatched | .withdrawn => change

/-- Whether a card is waiting, returned, or spent on a submission no one has handed over. -/
def isRetained (submissions : JsMap String AgentJournalSubmission) (card : QueuedMessageRow) :
    Bool :=
  match card.state with
  | .waiting | .returned => true
  | .dispatched =>
    (card.consumedAs.bind submissions.get?).any isQueuedAgentJournalSubmission
  | .withdrawn => false

/-- Restate waiting and returned cards before their epoch is deleted. -/
def retainedQueueFacts (cards : List QueuedMessageRow)
    (submissions : JsMap String AgentJournalSubmission) :
    List (String × Option JournalQueueChange) :=
  (cards.filter (isRetained submissions)).map fun card =>
    (card.messageId, some (.queued (retainedChange card)))

/-! ## Provider conversations -/

inductive JournalConversation where
  | codex (threadId : String)
  | claude (sessionId : String)
  | other (agent value : String)
deriving DecidableEq

/-- The conversation a handle names, where it has the shape of one. -/
def journalConversation (handle : JsValue) : Option JournalConversation := do
  let text (key : String) : Option String := nonempty? (handle.member key).string?
  let kind ← (handle.member "kind").string?
  if kind = "codex" then return .codex (← text "threadId")
  if kind = "claude" then
    let sessionId ← text "sessionId"
    if handle.member "leafUuid" = .null ∨ (text "leafUuid").isSome then return .claude sessionId
    else none
  if kind = "opaque" then return .other (← text "agent") (← text "value")
  none

def sameJournalConversation (first second : JsValue) : Bool :=
  (journalConversation first).isSome && journalConversation first = journalConversation second

/-! ## The rows of the new epoch -/

structure JournalReplacementItem where
  identity : AgentJournalItemIdentity
  body : AgentJournalItemBody
  observedAt : Option Int
  turnScope : Option AgentJournalTurnScope
  ownerFence : Int
  executionOwner : Option Int
  echoOf : Option JsValue
  linkage : AgentJournalProducerLinkage

structure EpochReplacement where
  sessionId : String
  providerHandle : JsValue
  reason : AgentJournalEpochReason
  fence : Int
  items : List JournalReplacementItem
  previous : JournalReducerState
  queuePause : JournalQueuePauseRestatement
  queue : List (String × Option JournalQueueChange)
  /-- The clock when the row of a sequence is built. -/
  now : Nat → Int
  /-- The minted epoch. -/
  epoch : String

/-- The rows written so far, and the state they fold into. -/
structure EpochDraft where
  state : JournalReducerState
  rows : List JournalRow

namespace EpochReplacement

variable (env : JournalEnvironment) (input : EpochReplacement)

def push (draft : EpochDraft) (row : JournalRow) : EpochDraft :=
  ⟨applyJournalRow env draft.state row, draft.rows ++ [row]⟩

/-- `journalRowBase`, at the sequence after the last. -/
def rowBase (state : JournalReducerState) (fence ts : Int) : JournalRowBase :=
  ⟨state.epoch, state.lastSequence + 1, fence, ts, false, none, .none⟩

def nextNow (state : JournalReducerState) : Int := input.now (state.lastSequence + 1)

/-- Whether the new epoch continues a history of the same conversation. -/
def keepsHistory : Bool := input.reason ≠ .legacyImport && input.reason ≠ .sessionCreated

def epochRow (state : JournalReducerState) : JournalRow :=
  let restated := match input.previous.historyOrigin with
    | some origin =>
      if input.keepsHistory && sameJournalConversation origin.providerHandle input.providerHandle
      then origin.raw else .undefined
    | none => .undefined
  { base := rowBase state input.fence (input.nextNow state)
    content := .epoch
      { reason :=
          if input.reason = .legacyImport ∧ input.items.isEmpty then .sessionCreated
          else input.reason
        providerHandle := input.providerHandle
        historyOrigin := restated } }

def nextJournalItemRevision (state : JournalReducerState) (itemId : String) : Int :=
  let resolved := resolveAlias state itemId
  max (((state.items.get? resolved).map (·.revision)).getD 0)
    ((state.tombstones.get? resolved).getD 0) + 1

/-- Revisions retain the creator's owner. -/
def journalItemOwnerFence (state : JournalReducerState) (resolvedItemId : String)
    (ownerFence : Int) : Int :=
  if state.items.has resolvedItemId then (state.itemFences.get? resolvedItemId).getD ownerFence
  else ownerFence

/-- The echo a replaced item declares: the one its item had, or its own. -/
def echoOf (item : JournalReplacementItem) : Option JsValue :=
  let key := resolveAlias input.previous (agentJournalItemKey item.identity)
  let restated := if input.keepsHistory then input.previous.itemEchoes.get? key else none
  (restated <|> item.echoOf).map fun echo => if echo = .undefined then .null else echo

/-- No Stop is folded before the items, so `turnEndAfterStop` leaves their bodies. -/
def itemRow (state : JournalReducerState) (item : JournalReplacementItem) : JournalRow :=
  let itemId := agentJournalItemKey item.identity
  { base := { rowBase state input.fence (item.observedAt.getD (input.nextNow state)) with
      turnScope := some (item.turnScope.getD (scopeFor state.openTurnItemId item.body))
      producer := item.linkage }
    content := .item
      { itemId := itemId
        revision := nextJournalItemRevision state itemId
        body := item.body
        ownerFence :=
          some (journalItemOwnerFence state (resolveAlias state itemId) item.ownerFence)
        executionOwner := item.executionOwner
        echoOf := input.echoOf item } }

def pushItem (draft : EpochDraft) (item : JournalReplacementItem) : Except String EpochDraft :=
  if input.fence < draft.state.highestFence then .error "journal_stale_fence"
  else .ok (push env draft (input.itemRow draft.state item))

/-- Cards belong to the journal and must not expire with writer fences. -/
def queueRow (state : JournalReducerState) (messageId : String) (change : JournalQueueChange) :
    JournalRow where
  base := rowBase state state.highestFence (input.nextNow state)
  content := .queue messageId change

def pushCard (draft : EpochDraft) (card : String × Option JournalQueueChange) : EpochDraft :=
  match card.2 with
  | none => draft
  | some change => push env draft (input.queueRow draft.state card.1 change)

/-- Insert before the first later acceptance, so equal sequences keep their order. -/
def insertByAccepted (submission : AgentJournalSubmission) :
    List AgentJournalSubmission → List AgentJournalSubmission
  | [] => [submission]
  | first :: rest =>
    if submission.acceptedSequence.getD 0 < first.acceptedSequence.getD 0 then
      submission :: first :: rest
    else first :: insertByAccepted submission rest

/-- Accepted but unhanded messages must survive provider history replacement. -/
def carriedSubmissions : List AgentJournalSubmission :=
  (input.previous.submissions.values.filter isQueuedAgentJournalSubmission).foldl
    (fun sorted submission => insertByAccepted submission sorted) []

def submissionRow (state : JournalReducerState) (submission : AgentJournalSubmission)
    (body : AgentJournalMessageItem) : JournalRow where
  base := rowBase state input.fence submission.submittedAt
  content := .submission
    { clientMessageId := submission.clientMessageId
      payloadFingerprint := submission.payloadFingerprint
      body := body
      handoverRecorded := submission.handoverRecorded
      queuedMessageId := submission.queuedMessageId
      origin := submission.origin
      source := (submission.source.map fun kind => JsValue.object [("kind", .string kind)]).getD
        .undefined
      options := submission.options.getD .undefined }

def pushSubmission (draft : EpochDraft) (submission : AgentJournalSubmission) :
    Except String EpochDraft :=
  match (input.previous.items.get? (agentJournalSubmissionKey submission.clientMessageId)).map
      AgentJournalRenderItem.body with
  | some (.message body) => .ok (push env draft (input.submissionRow draft.state submission body))
  | _ => .error "journal_queued_submission_body_missing"

/-! ## The marks -/

/-- A tombstone row under an id no real item uses. -/
def markContent (name : String) : JournalTombstoneContent where
  itemId := agentJournalItemKey (.orca name)
  revision := 1
  stopEvent := .undefined
  queueResume := .undefined
  queueReopen := .undefined
  queueReopenSince := .undefined
  queueClear := .undefined
  retireSubmission := false

def queueResumeContent : JournalTombstoneContent :=
  { markContent "queue-resume" with queueResume := .boolean true }

def stopEventContent (event : JsValue) : JournalTombstoneContent :=
  { markContent "stop-event" with stopEvent := event }

def queueReopenContent : JournalTombstoneContent :=
  { markContent "queue-reopen" with queueReopen := .boolean true }

def queueClearContent (clear : QueueClearRestatement) : JournalTombstoneContent :=
  { markContent "queue-context-clear" with
    queueClear := .object ([("operationId", .string clear.operationId),
      ("messageIds", .array (clear.messageIds.map JsValue.string))] ++
      if clear.lifted then [("lifted", .boolean true)] else []) }

def marks : List JournalTombstoneContent :=
  (if input.queuePause.lifted then [queueResumeContent] else []) ++
    (input.queuePause.liveStop.map stopEventContent).toList ++
    (if input.queuePause.reopened then [queueReopenContent] else []) ++
    (input.queuePause.cleared.map queueClearContent).toList

def pushMark (draft : EpochDraft) (mark : JournalTombstoneContent) : EpochDraft :=
  push env draft ⟨rowBase draft.state input.fence (input.nextNow draft.state), .tombstone mark⟩

end EpochReplacement

/-- The rows of the new epoch and the state it publishes. -/
def replaceJournalEpoch (env : JournalEnvironment) (input : EpochReplacement) :
    Except String EpochDraft := do
  let state := createJournalReducerState input.sessionId input.epoch
  let opened := EpochReplacement.push env ⟨state, []⟩ (input.epochRow state)
  let withItems ← input.items.foldlM (input.pushItem env) opened
  let withCards := input.queue.foldl (input.pushCard env) withItems
  let carried ← input.carriedSubmissions.foldlM (input.pushSubmission env) withCards
  return input.marks.foldl (input.pushMark env) carried

end OxeeUI.Journal
