import OxeeUI.Journal.SubmissionFold

/-!
# Queue cards

The queue is folded after the other facts of a row, from the submission states
that row left.  A fold that yields no card leaves the stored card, and the
queue's revision, as they are.
-/

namespace OxeeUI.Journal

open OxeeUI.Library

/-- Proven non-delivery waits again; uncertainty stays spent; a command refusal
the transcript already reports needs no returned card. -/
def rejectedCardTransition (card : QueuedMessageRow) (rejected : AgentJournalSubmission)
    (commandTurnReported : Bool) : Option QueuedMessageRow :=
  match queuedHandOffOutcome rejected with
  | .waiting => some { card with state := .waiting, holdReason := none, consumedAs := none }
  | .inDoubt => none
  | .returned =>
    if card.body.command.isSome && commandTurnReported then
      some { card with state := .withdrawn }
    else
      some
        { card with
          state := .returned
          returnedReason := rejected.reason
          returnedRejection := rejected.rejection }

def commandTurnReported (state : JournalReducerState) (clientMessageId : String) : Bool :=
  state.items.has
    (agentJournalItemKey (structuredAgentSessionCommandTurnIdentity clientMessageId))

def setCard (state : JournalReducerState) (card : QueuedMessageRow) : JournalReducerState :=
  { state with
    queue := ⟨state.queue.cards.set card.messageId card, state.queue.revision + 1⟩ }

def settledHandOff (state : JournalReducerState) (card : QueuedMessageRow)
    (submission : AgentJournalSubmission) : Option QueuedMessageRow :=
  if submission.dispatchState = .rejected then
    rejectedCardTransition card submission (commandTurnReported state submission.clientMessageId)
  else none

/-- One classification of cards for replay, import and read. -/
def queuedCardFromChange (env : JournalEnvironment) (state : JournalReducerState)
    (messageId : String) (change : JournalQueuedChange) : QueuedMessageRow :=
  let card : QueuedMessageRow :=
    { messageId := messageId
      position := change.position
      body := change.body
      fingerprint := env.agentSessionSendBodyFingerprint state.sessionId (.message change.body)
      state := .waiting
      holdReason := change.holdReason
      returnedReason := none
      returnedRejection := none
      consumedAs := none
      queuedAt := change.queuedAt
      options := env.readAgentSessionExecutionOptions change.options }
  let attempt := nonempty? change.attempt
  match attempt.bind state.submissions.get? with
  | some submission =>
    let handedOff := { card with
      state := .dispatched, holdReason := none, consumedAs := attempt }
    (settledHandOff state handedOff submission).getD handedOff
  | none =>
    match change.returned with
    | some (reason, rejection) =>
      { card with
        state := .returned
        holdReason := none
        consumedAs := attempt
        returnedReason := reason
        returnedRejection := readStoredRejectionFact env.failureDetails rejection }
    | none =>
      if attempt.isSome then
        { card with state := .dispatched, holdReason := none, consumedAs := attempt }
      else card

/-- Late answers from earlier attempts must not move cards already handed off again. -/
def cardHandedOffAs (state : JournalReducerState) (submission : AgentJournalSubmission) :
    Option QueuedMessageRow :=
  (submission.queuedMessageId.bind state.queue.cards.get?).filter fun card =>
    card.state = .dispatched && card.consumedAs = some submission.clientMessageId

/-- Ambiguous delivery remains spent; never requeue it. -/
def settleHandOffInDoubt (state : JournalReducerState) (clientMessageId : String) :
    JournalReducerState :=
  match state.submissions.get? clientMessageId with
  | none => state
  | some submission =>
    if submission.dispatchState = .rejected ∧ queuedHandOffOutcome submission = .inDoubt then
      foldQueuedHandOffInDoubt state clientMessageId submission
    else state

def applyQueuedChange (env : JournalEnvironment) (state : JournalReducerState)
    (messageId : String) (change : JournalQueuedChange) : JournalReducerState :=
  let card := queuedCardFromChange env state messageId change
  match card.consumedAs with
  | some attempt => settleHandOffInDoubt (setCard state card) attempt
  | none => setCard state card

def applyQueueRow (env : JournalEnvironment) (state : JournalReducerState) (messageId : String)
    (change : JournalQueueChange) : JournalReducerState :=
  match change, state.queue.cards.get? messageId with
  | .queued change, _ => applyQueuedChange env state messageId change
  | _, none => state
  | .edited body, some card =>
    setCard state
      { card with
        body := body
        fingerprint := env.agentSessionSendBodyFingerprint state.sessionId (.message body) }
  | .moved position, some card => setCard state { card with position := position }
  | .held holdReason, some card =>
    if card.state = .waiting then setCard state { card with holdReason := some holdReason }
    else state
  | .withdrawn, some card => setCard state { card with state := .withdrawn, holdReason := none }

/-- A submission of a queued message spends its card. -/
def spendCardOnSubmission (state : JournalReducerState) (content : JournalSubmissionContent) :
    JournalReducerState :=
  match content.queuedMessageId.bind state.queue.cards.get? with
  | none => state
  | some card =>
    setCard state
      { card with
        state := .dispatched
        holdReason := none
        consumedAs := some content.clientMessageId
        returnedReason := none
        returnedRejection := none }

/-- The card a dispatch row's submission was handed off from, settled. -/
def settleDispatchedCard (state : JournalReducerState) (clientMessageId : String) :
    JournalReducerState :=
  match state.submissions.get? clientMessageId with
  | none => state
  | some submission =>
    match cardHandedOffAs state submission with
    | none => state
    | some card =>
      let settled := match settledHandOff state card submission with
        | some card => setCard state card
        | none => state
      settleHandOffInDoubt settled clientMessageId

/-- Command turns already show their refusal; returned cards would block following work. -/
def spendReportedCommandCard (state : JournalReducerState) (card : QueuedMessageRow) :
    JournalReducerState :=
  if card.state = .returned && card.body.command.isSome &&
      card.consumedAs.any (commandTurnReported state) then
    setCard state { card with state := .withdrawn }
  else state

def spendReportedCommandCards (state : JournalReducerState) : JournalReducerState :=
  state.queue.cards.values.foldl spendReportedCommandCard state

def foldJournalQueueRow (env : JournalEnvironment) (state : JournalReducerState)
    (row : JournalRow) : JournalReducerState :=
  match row.content with
  | .queue messageId change => applyQueueRow env state messageId change
  | .submission content => spendCardOnSubmission state content
  | .dispatch content => settleDispatchedCard state content.clientMessageId
  | .item _ | .lifecycleBatch _ _ => spendReportedCommandCards state
  | .epoch _ | .tombstone _ => state

end OxeeUI.Journal
