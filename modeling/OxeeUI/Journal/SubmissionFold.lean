import OxeeUI.Journal.State

/-!
# Submissions and their dispatch

A submission row opens a bubble and a pending dispatch.  Dispatch rows and
provider echoes settle it, once; the hand-off of a queued message may still be
displayed as doubtful after the provider refused it.
-/

namespace OxeeUI.Journal

open OxeeUI.Library

def journalRenderItem (itemId : String) (revision : Int) (body : AgentJournalItemBody)
    (row : JournalRowBase) (turnScope : AgentJournalTurnScope)
    (producer : AgentJournalProducerLinkage) (sequenceIndex : Nat) : AgentJournalRenderItem where
  itemId := itemId
  revision := revision
  body := body
  sequence := row.seq
  sequenceIndex := if 0 < sequenceIndex then some sequenceIndex else none
  observedAt := row.ts
  recovered := row.recovered
  recoveredAt := if row.recovered then some row.ts else none
  turnScope := some turnScope
  producer := producer

/-- Prefer per-mutation producers; retain whole-batch linkage as fallback. -/
def journalBatchMutationProducer (row mutation : AgentJournalProducerLinkage) :
    AgentJournalProducerLinkage :=
  if mutation.namesProducer then mutation else row

/-- The value, when it is a string with something in it. -/
def nonempty? (value : Option String) : Option String :=
  value.filter (· ≠ "")

def storedSourceKind (stored : JsValue) : String :=
  (stored.member "kind").string?.getD ""

/-- The pending submission a submission row opens. -/
def submittedJournalSubmission (env : JournalEnvironment) (row : JournalRowBase)
    (content : JournalSubmissionContent) : AgentJournalSubmission where
  clientMessageId := content.clientMessageId
  fence := row.fence
  payloadFingerprint := content.payloadFingerprint
  dispatchState := .pending
  providerItemId := none
  reason := none
  rejection := none
  submittedAt := row.ts
  resolvedAt := none
  submittedSequence := row.seq
  answeredInTurn := none
  recovered := false
  handoverRecorded := content.handoverRecorded
  handedOverAt := none
  acceptedSequence := if content.handoverRecorded then some row.seq else none
  queuedMessageId := nonempty? content.queuedMessageId
  origin := content.origin
  source := if content.source = .undefined then none else some (storedSourceKind content.source)
  keptAsQueuedMessageId := none
  options := env.readAgentSessionExecutionOptions content.options

def applyJournalSubmission (env : JournalEnvironment) (state : JournalReducerState)
    (row : JournalRowBase) (content : JournalSubmissionContent) : JournalReducerState :=
  let itemId := agentJournalSubmissionKey content.clientMessageId
  let body := AgentJournalItemBody.message content.body
  -- Delayed handovers belong to no turn until dispatch names one.
  let turnScope := if content.handoverRecorded then .thread
    else statedOrDerivedTurnScope state row.turnScope body
  upsertJournalItem env
    { state with
      submissions := state.submissions.set content.clientMessageId
        (submittedJournalSubmission env row content) }
    itemId 0 (journalRenderItem itemId 0 body row turnScope row.producer 0)
    ⟨row.fence, none, none⟩

/-- Put an item somewhere else, when it is there to be moved. -/
def moveJournalItem (state : JournalReducerState) (itemId : String) (place : JournalPlace) :
    JournalReducerState :=
  match state.items.get? itemId with
  | none => state
  | some item =>
    { state with
      items := state.items.set itemId
        { item with
          sequence := place.sequence
          sequenceIndex := none
          observedAt := place.observedAt
          turnScope := some place.turnScope } }

def placeHandedOverMessage (state : JournalReducerState) (submission : AgentJournalSubmission)
    (row : JournalRowBase) : JournalReducerState :=
  if submission.handoverRecorded then
    match state.items.get? (agentJournalSubmissionKey submission.clientMessageId) with
    | none => state
    | some item =>
      let place : JournalPlace :=
        ⟨row.seq, row.ts, row.turnScope.getD (scopeFor state.openTurnItemId item.body)⟩
      { moveJournalItem state (agentJournalSubmissionKey submission.clientMessageId) place with
        queuedHandOffPlaces :=
          if submission.queuedMessageId.isSome then
            state.queuedHandOffPlaces.set submission.clientMessageId place
          else state.queuedHandOffPlaces }
  else state

/-- Place proven rejections at settlement in thread scope. -/
def placeRejectedMessage (state : JournalReducerState) (submission : AgentJournalSubmission)
    (row : JournalRowBase) : JournalReducerState :=
  moveJournalItem state (agentJournalSubmissionKey submission.clientMessageId)
    ⟨row.seq, row.ts, .thread⟩

def dispatchDoubtProviderEndedUnanswered : String := "provider_ended_before_acknowledgement"

/-- What the display of an uncertain hand-off makes of its submission. -/
def handOffInDoubt (submission : AgentJournalSubmission) : AgentJournalSubmission :=
  if dispatchWasWithdrawn submission && submission.answeredInNoTurn then
    { submission with queuedMessageId := none }
  else
    { submission with
      dispatchState := .unknown
      reason := some dispatchDoubtProviderEndedUnanswered
      recovered := true
      rejection := none }

/-- Uncertain handoffs remain spent at their handover position. -/
def foldQueuedHandOffInDoubt (state : JournalReducerState) (clientMessageId : String)
    (submission : AgentJournalSubmission) : JournalReducerState :=
  let itemId := agentJournalSubmissionKey submission.clientMessageId
  let noted := { state with
    normalizedHandOffs := addOnce state.normalizedHandOffs submission.clientMessageId }
  let placed := match state.queuedHandOffPlaces.get? submission.clientMessageId with
    | none => noted
    | some place => moveJournalItem noted itemId place
  { placed with
    submissions := placed.submissions.set clientMessageId (handOffInDoubt submission) }

/-- Any provider-accepted turn may lift queue pauses. -/
def noteTurnAccepted (state : JournalReducerState) (submission : AgentJournalSubmission) :
    JournalReducerState :=
  { state with
    latestAcceptedTurnSequence :=
      match submission.acceptedSequence with
      | some sequence => max state.latestAcceptedTurnSequence sequence
      | none => state.latestAcceptedTurnSequence }

/-- The submission whose bubble an item key addresses, with its map key. -/
def submissionForItem (state : JournalReducerState) (itemId : String) :
    Option (String × AgentJournalSubmission) :=
  state.submissions.entries.find? fun entry =>
    agentJournalSubmissionKey entry.2.clientMessageId = itemId

def acceptSubmissionFromProviderItem (state : JournalReducerState)
    (providerItemId resolvedItemId : String) (row : JournalRowBase) : JournalReducerState :=
  if providerItemId = resolvedItemId then state
  else
    match submissionForItem state resolvedItemId with
    | none => state
    | some (key, submission) =>
      if journalDispatchRowApplies submission then
        { noteTurnAccepted state submission with
          submissions := state.submissions.set key
            { submission with
              fence := row.fence
              dispatchState := .accepted
              providerItemId := some providerItemId
              reason := none
              resolvedAt := some row.ts
              recovered := false }
          receipts := state.receipts.set submission.clientMessageId
            ⟨submission.clientMessageId, providerItemId, ⟨row.epoch, row.seq⟩, row.ts⟩ }
      else state

/-! ## Dispatch rows -/

/-- Inline markers keep a clipped reason from reading as complete. -/
def journalTruncationMarker (byteLength : Nat) (digest : String) : String :=
  "\n[Orca: output truncated — " ++ toString byteLength ++ " bytes total, digest " ++
    String.ofList (digest.toList.take 12) ++ "]"

def journalDispatchReasonInlineHeadBytes : Nat := 16 * 1024

/-- `boundInlineText(reason, JOURNAL_DISPATCH_REASON_LIMITS).text`. -/
def boundDispatchReason (env : JournalEnvironment) (reason : String) : String :=
  let byteLength := utf8Length reason.toList
  if byteLength ≤ journalDispatchReasonInlineHeadBytes then reason
  else
    String.ofList (takeUtf8 journalDispatchReasonInlineHeadBytes reason.toList) ++
      journalTruncationMarker byteLength (env.digestPayload reason)

/-- Malformed and unknown joins mean no answered turn. -/
def readAnsweredTurn (value : JsValue) : Option AgentJournalAnsweredTurn :=
  match value.member "turnItemId", value.member "via" with
  | .string turnItemId, .string via =>
    if turnItemId = "" then none
    else if via = "start" then some ⟨turnItemId, .start⟩
    else if via = "steer" then some ⟨turnItemId, .steer⟩
    else none
  | _, _ => none

/-- The submission after a dispatch row that applies to it. -/
def dispatchedSubmission (env : JournalEnvironment) (submission : AgentJournalSubmission)
    (row : JournalRowBase) (content : JournalDispatchContent) : AgentJournalSubmission :=
  let rejected : Bool := content.state = .rejected
  { submission with
    fence := row.fence
    dispatchState := content.state
    providerItemId := content.providerItemId
    reason := content.reason.map (boundDispatchReason env)
    rejection := if rejected then readStoredRejectionFact env.failureDetails content.rejection
      else none
    keptAsQueuedMessageId :=
      if rejected then nonempty? content.keptAsQueuedMessageId <|> submission.keptAsQueuedMessageId
      else submission.keptAsQueuedMessageId
    answeredInTurn :=
      if rejected ∧ content.answeredInTurn ≠ .undefined then
        some (readAnsweredTurn content.answeredInTurn)
      else none
    resolvedAt := if content.state = .pending then none else some row.ts
    handedOverAt := if content.state = .pending then some row.ts else submission.handedOverAt
    recovered := row.recovered }

/-- A rebind replaces coverage, including an empty set. -/
def foldStoppedHistoryCarried (state : JournalReducerState) (content : JournalDispatchContent) :
    JournalReducerState :=
  let carried := content.carries.filter (· ≠ "")
  { state with
    stoppedHistoryCarried :=
      if carried.isEmpty then state.stoppedHistoryCarried.delete content.clientMessageId
      else state.stoppedHistoryCarried.set content.clientMessageId carried }

/-- What a settled dispatch does besides the submission itself. -/
def settleDispatchedMessage (state : JournalReducerState) (submission : AgentJournalSubmission)
    (row : JournalRowBase) (content : JournalDispatchContent) : JournalReducerState :=
  match content.state with
  | .pending => foldStoppedHistoryCarried (placeHandedOverMessage state submission row) content
  | .rejected => placeRejectedMessage state submission row
  | .accepted =>
    let noted := noteTurnAccepted state submission
    match nonempty? content.providerItemId with
    | none => noted
    | some providerItemId =>
      { noted with
        aliases := noted.aliases.set providerItemId
          (agentJournalSubmissionKey content.clientMessageId)
        receipts := noted.receipts.set content.clientMessageId
          ⟨content.clientMessageId, providerItemId, ⟨row.epoch, row.seq⟩, row.ts⟩ }
  | .unknown => state

def applyJournalDispatchRow (env : JournalEnvironment) (state : JournalReducerState)
    (row : JournalRowBase) (content : JournalDispatchContent) : JournalReducerState :=
  match state.submissions.get? content.clientMessageId with
  | none => state
  | some submission =>
    -- Ignored dispatch rows must not change queue cards either.
    if journalDispatchRowApplies submission then
      let dispatched := dispatchedSubmission env submission row content
      settleDispatchedMessage
        { state with submissions := state.submissions.set content.clientMessageId dispatched }
        dispatched row content
    else state

/-- `retireRewoundJournalSubmission`: a rewound bubble takes its submission along. -/
def retireRewoundJournalSubmission (env : JournalEnvironment) (state : JournalReducerState)
    (itemId : String) : JournalReducerState :=
  match parseAgentJournalItemKey env.ordinalOf itemId with
  | some (.orca clientMessageId) =>
    { state with
      submissions := state.submissions.delete clientMessageId
      receipts := state.receipts.delete clientMessageId
      aliases := state.aliases.filter fun _ submissionItemId => submissionItemId ≠ itemId }
  | _ => state

end OxeeUI.Journal
