import OxeeUI.Library.Json
import OxeeUI.Library.Utf16

/-!
# Failure facts and dispatch rejections

A rejected send carries a typed fact, a legacy marker or a sentence.  The
classification decides whether it means a failure of the user's message, and
the settlement decides what becomes of the queued card the send came from.
-/

namespace OxeeUI.Journal

open OxeeUI.Library

inductive SubmissionRejectionKind where
  | providerStartFailed | startFailed | notSignedIn | cliMissing | historyTooLarge
  | managedAccountEnvOverride | accountSwitchInProgress | managedAccountUnsupported
  | launchFolderMissing | historyInOtherAccount | claudeAccountFolderMissing
  | claudeAccountSetupFailed | agentCommandNotRunnable | runtimeNotInstalled
  | fullAccessAsRoot | conversationOpenInTerminal | conversationOpenElsewhere
  | providerExited | restartFailed | providerRejected | attachmentInvalid
  | attachmentUnreadable | emptyMessage | commandUnavailable | queueFull | writeFailed
  | cancelled | chatClosed | hostRestarted | notDelivered | commandRefused
  | hostFault | hostStopped
deriving DecidableEq

/-- Kinds only a status row reports: none is ever why a message was not sent. -/
inductive StatusRowOnlyFailureKind where
  | compactionFailed | compactionUnconfirmed | cancelUnconfirmed | stopRefused | stopFailed
  | backgroundTaskNotStopped | answerUnconfirmed | providerRetrying | usageLimitReached
  | previousExitUnverifiable | sessionNotRestored
deriving DecidableEq

inductive AgentSessionFailureKind where
  | rejection (kind : SubmissionRejectionKind)
  | statusRowOnly (kind : StatusRowOnlyFailureKind)
deriving DecidableEq

namespace AgentSessionFailureKind

open SubmissionRejectionKind StatusRowOnlyFailureKind

/-- `AGENT_SESSION_FAILURE_KINDS`, each under the name it is stored by. -/
def known : List (String × AgentSessionFailureKind) :=
  [("providerStartFailed", .rejection providerStartFailed),
   ("startFailed", .rejection startFailed),
   ("notSignedIn", .rejection notSignedIn),
   ("cliMissing", .rejection cliMissing),
   ("historyTooLarge", .rejection historyTooLarge),
   ("managedAccountEnvOverride", .rejection managedAccountEnvOverride),
   ("accountSwitchInProgress", .rejection accountSwitchInProgress),
   ("managedAccountUnsupported", .rejection managedAccountUnsupported),
   ("launchFolderMissing", .rejection launchFolderMissing),
   ("historyInOtherAccount", .rejection historyInOtherAccount),
   ("claudeAccountFolderMissing", .rejection claudeAccountFolderMissing),
   ("claudeAccountSetupFailed", .rejection claudeAccountSetupFailed),
   ("agentCommandNotRunnable", .rejection agentCommandNotRunnable),
   ("runtimeNotInstalled", .rejection runtimeNotInstalled),
   ("fullAccessAsRoot", .rejection fullAccessAsRoot),
   ("conversationOpenInTerminal", .rejection conversationOpenInTerminal),
   ("conversationOpenElsewhere", .rejection conversationOpenElsewhere),
   ("providerExited", .rejection providerExited),
   ("restartFailed", .rejection restartFailed),
   ("providerRejected", .rejection providerRejected),
   ("attachmentInvalid", .rejection attachmentInvalid),
   ("attachmentUnreadable", .rejection attachmentUnreadable),
   ("emptyMessage", .rejection emptyMessage),
   ("commandUnavailable", .rejection commandUnavailable),
   ("queueFull", .rejection queueFull),
   ("writeFailed", .rejection writeFailed),
   ("cancelled", .rejection cancelled),
   ("chatClosed", .rejection chatClosed),
   ("hostRestarted", .rejection hostRestarted),
   ("notDelivered", .rejection notDelivered),
   ("commandRefused", .rejection commandRefused),
   ("compactionFailed", .statusRowOnly compactionFailed),
   ("compactionUnconfirmed", .statusRowOnly compactionUnconfirmed),
   ("cancelUnconfirmed", .statusRowOnly cancelUnconfirmed),
   ("stopRefused", .statusRowOnly stopRefused),
   ("stopFailed", .statusRowOnly stopFailed),
   ("backgroundTaskNotStopped", .statusRowOnly backgroundTaskNotStopped),
   ("answerUnconfirmed", .statusRowOnly answerUnconfirmed),
   ("hostFault", .rejection hostFault),
   ("hostStopped", .rejection hostStopped),
   ("providerRetrying", .statusRowOnly providerRetrying),
   ("usageLimitReached", .statusRowOnly usageLimitReached),
   ("previousExitUnverifiable", .statusRowOnly previousExitUnverifiable),
   ("sessionNotRestored", .statusRowOnly sessionNotRestored)]

/-- `isAgentSessionFailureKind`, with the kind it narrows to. -/
def read? (name : String) : Option AgentSessionFailureKind := known.lookup name

/-- `isSubmissionRejectionKind`, with the kind it narrows to. -/
def submissionRejection? : AgentSessionFailureKind → Option SubmissionRejectionKind
  | .rejection kind => some kind
  | .statusRowOnly _ => none

end AgentSessionFailureKind

/-- A stored fact.  Its kind may be newer than this reader; `details` holds the
members the journal keeps and never inspects. -/
structure UnreadAgentSessionFailureFact where
  kind : String
  neverReachedAgent : Bool
  details : JsValue
deriving DecidableEq

structure AgentSessionFailureFact where
  kind : AgentSessionFailureKind
  neverReachedAgent : Bool

/-- `readAgentSessionFailureFact`, on a fact already stored. -/
def readAgentSessionFailureFact (fact : UnreadAgentSessionFailureFact) :
    Option AgentSessionFailureFact :=
  (AgentSessionFailureKind.read? fact.kind).map (⟨·, fact.neverReachedAgent⟩)

/-- Preserve unknown rejection facts, so newer typed evidence is not replaced by a
guessed reason.  `detailsOf` reads the members of a known fact besides its kind
and its proof of non-delivery. -/
def readStoredRejectionFact (detailsOf : JsValue → JsValue) (value : JsValue) :
    Option UnreadAgentSessionFailureFact :=
  match value.member "kind" with
  | .string kind =>
    if (AgentSessionFailureKind.read? kind).isSome then
      some ⟨kind, value.member "neverReachedAgent" = .boolean true, detailsOf value⟩
    else if kind = "" then none
    else some ⟨kind, false, .undefined⟩
  | _ => none

/-! ## Legacy markers -/

def dispatchRejectedWriteFailed : String := "provider_write_failed"
def dispatchRejectedQueueFull : String := "claude structured dispatch queue is full"
def dispatchRejectedCodexQueueFull : String := "codex structured dispatch queue is full"
def dispatchRejectedCancelled : String := "provider_cancelled_before_start"
def dispatchRejectedHostRestarted : String := "host_restarted_before_delivery"
def dispatchRejectedProviderClosed : String := "provider_closed_before_delivery"
def dispatchRejectedNotDelivered : String := "not_delivered"

def dispatchRejectionWasTransportWriteFailure : Option String → Bool
  | none => false
  | some reason =>
    reason = dispatchRejectedWriteFailed ||
      (afterStart? (dispatchRejectedWriteFailed ++ ": ").toList reason.toList).isSome

/-- `LEGACY_MARKER_KINDS`. -/
def legacyMarkerKinds : List (String × SubmissionRejectionKind) :=
  [(dispatchRejectedCancelled, .cancelled),
   (dispatchRejectedHostRestarted, .hostRestarted),
   (dispatchRejectedProviderClosed, .chatClosed),
   (dispatchRejectedQueueFull, .queueFull),
   (dispatchRejectedCodexQueueFull, .queueFull),
   (dispatchRejectedNotDelivered, .notDelivered)]

def legacyMarkerKind (reason : Option String) : Option SubmissionRejectionKind :=
  if dispatchRejectionWasTransportWriteFailure reason then some .writeFailed
  else reason.bind fun marker => legacyMarkerKinds.lookup marker

/-! ## Classification -/

inductive DispatchRejectionCategory where
  | withdrawn | undelivered | startFailed | content | transport
deriving DecidableEq

/-- `verdict: 'failure' | null`, and the kind when one is known. -/
structure DispatchRejectionClassification where
  category : DispatchRejectionCategory
  failure : Bool
  kind : Option SubmissionRejectionKind

/-- `KIND_CATEGORY`. -/
def kindCategory : SubmissionRejectionKind → DispatchRejectionCategory
  | .cancelled => .withdrawn
  | .hostRestarted | .chatClosed | .notDelivered | .providerExited | .hostStopped => .undelivered
  | .providerStartFailed | .startFailed | .notSignedIn | .cliMissing | .historyTooLarge
  | .managedAccountEnvOverride | .accountSwitchInProgress | .managedAccountUnsupported
  | .launchFolderMissing | .historyInOtherAccount | .claudeAccountFolderMissing
  | .claudeAccountSetupFailed | .agentCommandNotRunnable | .runtimeNotInstalled
  | .fullAccessAsRoot | .conversationOpenInTerminal | .conversationOpenElsewhere
  | .restartFailed => .startFailed
  | .providerRejected | .attachmentInvalid | .attachmentUnreadable | .emptyMessage
  | .commandUnavailable | .commandRefused => .content
  | .queueFull | .writeFailed | .hostFault => .transport

/-- `KIND_VERDICT`: whether the kind is a failure verdict. -/
def kindFailure : SubmissionRejectionKind → Bool
  | .cancelled | .hostRestarted | .chatClosed | .notDelivered => false
  | _ => true

/-- Typed facts outrank prose; unknown facts prove non-delivery without a failure
verdict; other sentences remain content failures. -/
def classifyDispatchRejection (reason : Option String)
    (rejection : Option UnreadAgentSessionFailureFact) : DispatchRejectionClassification :=
  let ofKind : Option SubmissionRejectionKind → DispatchRejectionClassification
    | none => ⟨.content, true, none⟩
    | some kind => ⟨kindCategory kind, kindFailure kind, some kind⟩
  match rejection with
  | none => ofKind (legacyMarkerKind reason)
  | some fact =>
    match (readAgentSessionFailureFact fact).bind (·.kind.submissionRejection?) with
    | none => ⟨.undelivered, false, none⟩
    | some kind => ofKind (some kind)

end OxeeUI.Journal
