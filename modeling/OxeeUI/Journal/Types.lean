import Mathlib.Algebra.Ring.Int.Defs
import OxeeUI.Journal.Failure
import OxeeUI.Journal.ItemKey

/-!
# Journal data

The render items, submissions and queue cards the journal rows fold into.
Members no function of the fold inspects travel together as plain values.
-/

namespace OxeeUI.Journal

open OxeeUI.Library

structure AgentJournalCursor where
  epoch : String
  sequence : Nat
deriving DecidableEq

inductive AgentJournalTurnScope where
  | turn (turnItemId : String)
  | thread
  /-- The available source cannot identify the owning native turn. -/
  | unknown
deriving DecidableEq

/-! ## Item bodies -/

inductive NativeChatRole where
  | user | assistant | tool | reasoning | system
deriving DecidableEq

inductive AgentJournalResolutionState where
  | pending | resolved | cancelled
deriving DecidableEq

inductive AgentJournalTurnLifecycleState where
  | running | completed | interrupted | unverifiable
deriving DecidableEq

structure AgentJournalTurnLifecycle where
  turnId : String
  state : AgentJournalTurnLifecycleState
  rest : JsValue

structure AgentJournalMessageItem where
  role : NativeChatRole
  /-- The name of a conversation command the user sent. -/
  command : Option String
  rest : JsValue
deriving DecidableEq

inductive AgentJournalItemBody where
  | message (item : AgentJournalMessageItem)
  | toolCall (endedAs : Option String) (rest : JsValue)
  | diff (rest : JsValue)
  | approval (resolution : AgentJournalResolutionState) (rest : JsValue)
  | question (resolution : AgentJournalResolutionState) (rest : JsValue)
  | status (contextClear : JsValue) (turnLifecycle : Option AgentJournalTurnLifecycle)
      (providerFrame : Option JsValue) (rest : JsValue)
  | turn (turn : AgentJournalTurnLifecycle)

namespace AgentJournalItemBody

/-- `body.kind === 'message' && body.role === 'user'`. -/
def isUserMessage : AgentJournalItemBody → Bool
  | .message item => item.role = .user
  | _ => false

end AgentJournalItemBody

/-- What the fold takes from outside the journal: the body hash an echo is matched
by, the digest in a truncation marker, `Number(value)` for a safe ordinal, the
reader of a failure fact's other members, and the reader of execution options. -/
structure JournalEnvironment where
  agentSessionSendBodyFingerprint : String → AgentJournalItemBody → String
  digestPayload : String → String
  ordinalOf : String → Option Nat
  failureDetails : JsValue → JsValue
  readAgentSessionExecutionOptions : JsValue → Option JsValue

/-- Both current turn items and legacy status rows that carry a turn. -/
def readAgentJournalTurn : Option AgentJournalItemBody → Option AgentJournalTurnLifecycle
  | some (.turn turn) => some turn
  | some (.status _ turnLifecycle _ _) => turnLifecycle
  | _ => none

def isSafePosition (value : JsValue) : Bool :=
  match value with
  | .number position => 0 ≤ position && position < 2 ^ 53
  | _ => false

def isAgentSessionProviderContextBoundary (value : JsValue) : Bool :=
  match value.member "operationId" with
  | .string operationId =>
    operationId ≠ "" && utf16Length operationId.toList ≤ 512 &&
      isSafePosition (value.member "afterFence") && isSafePosition (value.member "clearedAt")
  | _ => false

def isAgentSessionContextClear : Option AgentJournalItemBody → Bool
  | some (.status contextClear _ _ _) => isAgentSessionProviderContextBoundary contextClear
  | _ => false

/-! ## Render items -/

/-- Producer identity repeated on every row; absence of all members is the session root. -/
structure AgentJournalProducerLinkage where
  agentId : Option String
  parentAgentId : Option String
  providerParentRef : Option String
  producerKind : Option String
  attempt : Option Int

namespace AgentJournalProducerLinkage

def none : AgentJournalProducerLinkage := ⟨.none, .none, .none, .none, .none⟩

/-- `namesAgentJournalProducer`: any member marks attribution. -/
def namesProducer (linkage : AgentJournalProducerLinkage) : Bool :=
  linkage.agentId.isSome || linkage.parentAgentId.isSome ||
    linkage.providerParentRef.isSome || linkage.producerKind.isSome || linkage.attempt.isSome

end AgentJournalProducerLinkage

structure AgentJournalRenderItem where
  itemId : String
  revision : Int
  body : AgentJournalItemBody
  sequence : Nat
  /-- Place among the writes of the row at `sequence`; absent means 0. -/
  sequenceIndex : Option Nat
  observedAt : Int
  recovered : Bool
  recoveredAt : Option Int
  turnScope : Option AgentJournalTurnScope
  producer : AgentJournalProducerLinkage

/-- `isRootAgentJournalItem`: no producing subagent is named. -/
def AgentJournalRenderItem.isRoot (item : AgentJournalRenderItem) : Bool :=
  item.producer.agentId.isNone

/-! ## Submissions -/

inductive AgentJournalDispatchState where
  | pending | accepted | rejected | unknown
deriving DecidableEq

inductive AgentJournalTurnJoin where
  | start | steer

structure AgentJournalAnsweredTurn where
  turnItemId : String
  via : AgentJournalTurnJoin

inductive JournalSubmissionOrigin where
  | client | host

structure AgentJournalSubmission where
  clientMessageId : String
  fence : Int
  payloadFingerprint : String
  dispatchState : AgentJournalDispatchState
  providerItemId : Option String
  reason : Option String
  rejection : Option UnreadAgentSessionFailureFact
  submittedAt : Int
  resolvedAt : Option Int
  submittedSequence : Nat
  /-- `some none`: recorded as answered into no turn; `none`: the field is absent. -/
  answeredInTurn : Option (Option AgentJournalAnsweredTurn)
  recovered : Bool
  handoverRecorded : Bool
  handedOverAt : Option Int
  acceptedSequence : Option Nat
  queuedMessageId : Option String
  origin : Option JournalSubmissionOrigin
  source : Option String
  keptAsQueuedMessageId : Option String
  options : Option JsValue

structure AgentJournalAcceptanceReceipt where
  clientMessageId : String
  providerItemId : String
  cursor : AgentJournalCursor
  acceptedAt : Int

/-- Withdrawn before running; only an explicit user resend may deliver it. -/
def dispatchWasWithdrawn (submission : AgentJournalSubmission) : Bool :=
  submission.dispatchState = .rejected &&
    (classifyDispatchRejection submission.reason submission.rejection).category = .withdrawn

def isWriteFailureSubmission (submission : AgentJournalSubmission) : Bool :=
  (submission.rejection.bind readAgentSessionFailureFact).any
      (·.kind = .rejection .writeFailed) ||
    dispatchRejectionWasTransportWriteFailure submission.reason

/-- `!submission.answeredInTurn`. -/
def AgentJournalSubmission.answeredInNoTurn (submission : AgentJournalSubmission) : Bool :=
  (submission.answeredInTurn.bind id).isNone

/-- Prove no delivery from a host-held send or an explicit settlement proof. -/
def agentJournalSubmissionProvenUnwritten (submission : AgentJournalSubmission) : Bool :=
  (submission.handoverRecorded && submission.handedOverAt.isNone) ||
    ((submission.rejection.bind readAgentSessionFailureFact).any (·.neverReachedAgent) &&
      submission.answeredInNoTurn)

/-- Accepted and rejected states are terminal; late rows must never reopen them. -/
def journalDispatchRowApplies (submission : AgentJournalSubmission) : Bool :=
  submission.dispatchState ≠ .rejected && submission.dispatchState ≠ .accepted

/-- Requeue only proven-undelivered cards; ambiguous handoffs stay spent. -/
inductive QueuedHandOffOutcome where
  | returned | waiting | inDoubt
deriving DecidableEq

def queuedHandOffOutcome (rejected : AgentJournalSubmission) : QueuedHandOffOutcome :=
  if (classifyDispatchRejection rejected.reason rejected.rejection).failure then .returned
  else if agentJournalSubmissionProvenUnwritten rejected then .waiting
  else .inDoubt

/-! ## Queue cards -/

inductive QueuedMessageState where
  | waiting | dispatched | returned | withdrawn
deriving DecidableEq

structure QueuedMessageRow where
  messageId : String
  position : Int
  body : AgentJournalMessageItem
  fingerprint : String
  state : QueuedMessageState
  holdReason : Option String
  returnedReason : Option String
  returnedRejection : Option UnreadAgentSessionFailureFact
  /-- The hand-off the card was spent on. -/
  consumedAs : Option String
  queuedAt : Option AgentJournalCursor
  options : Option JsValue
deriving DecidableEq

end OxeeUI.Journal
