import OxeeUI.Library.Utf16
import OxeeUI.Library.JsMap

/-!
# Blocks and messages of a chat

What of a message the tool run fold reads.  Everything else a block or a message
carries is one value of `Body`, which is never read.
-/

namespace OxeeUI.Chat

open OxeeUI.Library

universe u

inductive NativeChatRole where
  | user
  | assistant
  | tool
  | reasoning
  | system
deriving DecidableEq

structure ProviderFrame where
  provider : Text
  kind : Text

structure NativeChatTextBlock (Body : Type u) where
  text : Text
  presentation : Option Text
  tone : Option Text
  failure : Option Body
  providerFrame : Option ProviderFrame
  body : Body

structure NativeChatToolCallBlock (Body : Type u) where
  callId : Option Text
  body : Body

structure NativeChatToolResultBlock (Body : Type u) where
  callId : Option Text
  body : Body

inductive NativeChatBlock (Body : Type u) where
  | text (block : NativeChatTextBlock Body)
  | toolCall (block : NativeChatToolCallBlock Body)
  | toolResult (block : NativeChatToolResultBlock Body)
  | imageRef (body : Body)
  | subagentGroup (body : Body)
  | subagent (body : Body)
  | backgroundTask (body : Body)

structure NativeChatMessage (Body : Type u) where
  id : Text
  role : NativeChatRole
  blocks : List (NativeChatBlock Body)
  journalPosition : Option Body
  foldedJournalPosition : Option Body
  unpairedToolResults : Bool
  body : Body

namespace NativeChatBlock

variable {Body : Type u}

def text? : NativeChatBlock Body → Option (NativeChatTextBlock Body)
  | .text block => some block
  | _ => none

def isText (block : NativeChatBlock Body) : Bool := block.text?.isSome

def isToolCall : NativeChatBlock Body → Bool
  | .toolCall _ => true
  | _ => false

def isToolResult : NativeChatBlock Body → Bool
  | .toolResult _ => true
  | _ => false

def isSubagentGroup : NativeChatBlock Body → Bool
  | .subagentGroup _ => true
  | _ => false

def isBackgroundTask : NativeChatBlock Body → Bool
  | .backgroundTask _ => true
  | _ => false

end NativeChatBlock

/-- White space of `trim` and `\s`. -/
def isSpaceUnit (unit : UInt16) : Bool :=
  [9, 10, 11, 12, 13, 0x20, 0xA0, 0x1680, 0x2028, 0x2029, 0x202F, 0x205F, 0x3000, 0xFEFF].contains
      unit ||
    (0x2000 ≤ unit && unit ≤ 0x200A)

def trimText (text : Text) : Text :=
  ((text.dropWhile isSpaceUnit).reverse.dropWhile isSpaceUnit).reverse

/-! ## Harness injected turns -/

def knownHarnessTagNames : List String :=
  ["agent-message", "bash-input", "bash-stderr", "bash-stdout", "command-args", "command-message",
    "command-name", "cross-session-message", "fork-boilerplate", "local-command-caveat",
    "local-command-stderr", "local-command-stdout", "mcp-polling-update", "mcp-resource-update",
    "system-reminder", "task-notification", "teammate-message", "user-memory-input",
    "user-prompt-submit-hook"]

def harnessInjectedTurnPrefixes : List String :=
  ["<channel source=", "[request interrupted", "a message arrived from ",
    "another claude session sent a message", "no response requested.",
    "caveat: the messages below were generated by the user while running local commands",
    "this session is being continued from a previous conversation"]

def harnessClassifyHeadLimit : ℕ := 256
def harnessClassifyLeadingWsLimit : ℕ := 64

def isAsciiWhitespace (unit : UInt16) : Bool := [32, 9, 10, 13, 12].contains unit

/-- The lower case table of the language is a parameter. -/
def normalizedHarnessTurnHead (toLowerCase : Text → Text) (text : Text) : Text :=
  let start := ((text.take harnessClassifyLeadingWsLimit).takeWhile isAsciiWhitespace).length
  if text.length ≤ start then []
  else toLowerCase ((text.drop start).take harnessClassifyHeadLimit)

def isLowerUnit (unit : UInt16) : Bool := 0x61 ≤ unit && unit ≤ 0x7A

def isTagNameUnit (unit : UInt16) : Bool :=
  isLowerUnit unit || (0x30 ≤ unit && unit ≤ 0x39) || unit = 0x2D

/-- The first group of `/^<([a-z][a-z0-9-]*)(?:[\s>]|$)/`. -/
def leadingTagName? : Text → Option Text
  | bracket :: first :: rest =>
    if bracket = 0x3C && isLowerUnit first then
      let name := rest.takeWhile isTagNameUnit
      match rest.drop name.length with
      | [] => some (first :: name)
      | unit :: _ => if isSpaceUnit unit || unit = 0x3E then some (first :: name) else none
    else none
  | _ => none

def isKnownHarnessInjectedUserTurnText (toLowerCase : Text → Text) (text : Text) : Bool :=
  let normalized := normalizedHarnessTurnHead toLowerCase text
  if normalized = [] then false
  else
    (leadingTagName? normalized).any (fun name => (knownHarnessTagNames.map unitsOf).contains name) ||
      harnessInjectedTurnPrefixes.any fun start => (unitsOf start).isPrefixOf normalized

namespace NativeChatMessage

variable {Body : Type u} (toLowerCase : Text → Text) (message : NativeChatMessage Body)

def messageText : Text := trimText ((message.blocks.filterMap NativeChatBlock.text?).flatMap (·.text))

def isNoiseMessage : Bool :=
  if message.role ≠ .user ∧ message.role ≠ .system then false
  else if message.blocks.any fun block => block.isToolCall || block.isToolResult then false
  else isKnownHarnessInjectedUserTurnText toLowerCase message.messageText

end NativeChatMessage

/-! ## Provider frames without words -/

def claudeLocalCommandOutputFrameKind : Text := unitsOf "message:system:local_command_output"
def codexPlanUpdatedFrameKind : Text := unitsOf "notification:turn/plan/updated"

section Frames

variable {Body : Type u}

def isWordlessProviderFrame (row : NativeChatTextBlock Body) : Bool :=
  match row.providerFrame with
  | none => false
  | some frame =>
    row.tone.isNone && row.presentation.isNone && row.failure.isNone &&
      !((unitsOf "request:").isPrefixOf frame.kind) &&
      !(frame.provider = unitsOf "claude" && frame.kind = claudeLocalCommandOutputFrameKind) &&
      row.text = frame.provider ++ unitsOf " · " ++ frame.kind

def isWordlessProviderFrameBlock (block : NativeChatBlock Body) : Bool :=
  block.text?.any isWordlessProviderFrame

def isWordlessProviderFrameMessage (message : NativeChatMessage Body) : Bool :=
  !message.blocks.isEmpty && message.blocks.all isWordlessProviderFrameBlock

end Frames

end OxeeUI.Chat

/-!
## Pairing calls with results

Calls that wait for their result are a linked list, oldest first, with an index
by call id that is built when a named result misses the head.  The calls are
objects that point to one another; an object is named by its place among all
calls ever made.
-/

namespace OxeeUI.Chat

open OxeeUI.Library

universe u

structure PendingCall where
  slot : ℕ
  callId : Option Text
  previous : Option ℕ
  next : Option ℕ
  nextWithId : Option ℕ

structure CallIdQueue where
  first : ℕ
  last : ℕ

structure PendingToolCalls where
  calls : List PendingCall
  first : Option ℕ
  last : Option ℕ
  byId : Option (JsMap Text CallIdQueue)

namespace PendingToolCalls

def initial : PendingToolCalls := ⟨[], none, none, none⟩

def isEmpty (pending : PendingToolCalls) : Bool := pending.first.isNone

/-- An object's fields written. -/
def write (pending : PendingToolCalls) (call : ℕ) (change : PendingCall → PendingCall) :
    PendingToolCalls :=
  { pending with calls := pending.calls.modify call change }

def callIdOf (pending : PendingToolCalls) (call : ℕ) : Option Text :=
  pending.calls[call]?.bind PendingCall.callId

def nextOf (pending : PendingToolCalls) (call : ℕ) : Option ℕ :=
  pending.calls[call]?.bind PendingCall.next

def previousOf (pending : PendingToolCalls) (call : ℕ) : Option ℕ :=
  pending.calls[call]?.bind PendingCall.previous

def nextWithIdOf (pending : PendingToolCalls) (call : ℕ) : Option ℕ :=
  pending.calls[call]?.bind PendingCall.nextWithId

def slotOf (pending : PendingToolCalls) (call : ℕ) : Option ℕ :=
  pending.calls[call]?.map PendingCall.slot

def indexCall (pending : PendingToolCalls) (call : ℕ) (byId : JsMap Text CallIdQueue) :
    PendingToolCalls × JsMap Text CallIdQueue :=
  match pending.callIdOf call with
  | none => (pending, byId)
  | some callId =>
    match byId.get? callId with
    | some queue =>
      (pending.write queue.last fun last => { last with nextWithId := some call },
        byId.set callId { queue with last := call })
    | none => (pending, byId.set callId (CallIdQueue.mk call call))

def setNext (pending : PendingToolCalls) (call : ℕ) (next : Option ℕ) : PendingToolCalls :=
  pending.write call fun found => { found with next := next }

def setPrevious (pending : PendingToolCalls) (call : ℕ) (previous : Option ℕ) : PendingToolCalls :=
  pending.write call fun found => { found with previous := previous }

/-- A new call object, which points back to the last call. -/
def make (pending : PendingToolCalls) (slot : ℕ) (callId : Option Text) : PendingToolCalls :=
  { pending with calls := pending.calls ++ [PendingCall.mk slot callId pending.last none none] }

def link (pending : PendingToolCalls) (slot : ℕ) (callId : Option Text) : PendingToolCalls :=
  let call := pending.calls.length
  let made := pending.make slot callId
  let linked :=
    match pending.last with
    | some last => made.setNext last (some call)
    | none => { made with first := some call }
  { linked with last := some call }

def add (pending : PendingToolCalls) (slot : ℕ) (callId : Option Text) : PendingToolCalls :=
  let call := pending.calls.length
  let linked := pending.link slot callId
  match linked.byId with
  | none => linked
  | some byId =>
    let (indexed, byId) := linked.indexCall call byId
    { indexed with byId := some byId }

/-- The loop that indexes every call from one on; `steps` bounds its turns. -/
def indexFrom (steps : ℕ) (pending : PendingToolCalls) (cursor : Option ℕ)
    (byId : JsMap Text CallIdQueue) : PendingToolCalls × JsMap Text CallIdQueue :=
  match steps, cursor with
  | _, none => (pending, byId)
  | 0, some _ => (pending, byId)
  | steps + 1, some call =>
    let (pending, byId) := pending.indexCall call byId
    indexFrom steps pending (pending.nextOf call) byId

def withIndex (pending : PendingToolCalls) : PendingToolCalls × JsMap Text CallIdQueue :=
  match pending.byId with
  | some byId => (pending, byId)
  | none =>
    let (indexed, byId) := pending.indexFrom pending.calls.length pending.first JsMap.empty
    ({ indexed with byId := some byId }, byId)

def find (pending : PendingToolCalls) (callId : Option Text) : PendingToolCalls × Option ℕ :=
  match pending.first, callId with
  | some first, some named =>
    if pending.callIdOf first = some named then (pending, some first)
    else
      let (indexed, byId) := pending.withIndex
      (indexed, (byId.get? named).map CallIdQueue.first)
  | first, _ => (pending, first)

def cutForward (pending : PendingToolCalls) (call : ℕ) : PendingToolCalls :=
  match pending.previousOf call with
  | some previous => pending.setNext previous (pending.nextOf call)
  | none => { pending with first := pending.nextOf call }

def cutBackward (pending : PendingToolCalls) (call : ℕ) : PendingToolCalls :=
  match pending.nextOf call with
  | some next => pending.setPrevious next (pending.previousOf call)
  | none => { pending with last := pending.previousOf call }

def unlink (pending : PendingToolCalls) (call : ℕ) : PendingToolCalls :=
  (pending.cutForward call).cutBackward call

def popId (pending : PendingToolCalls) (call : ℕ) : PendingToolCalls :=
  match pending.byId, pending.callIdOf call with
  | some byId, some callId =>
    match byId.get? callId, pending.nextWithIdOf call with
    | some queue, some next =>
      { pending with byId := some (byId.set callId { queue with first := next }) }
    | _, _ => { pending with byId := some (byId.delete callId) }
  | _, _ => pending

def take (pending : PendingToolCalls) (callId : Option Text) : PendingToolCalls × Option ℕ :=
  let (found, call) := pending.find callId
  match call with
  | none => (found, none)
  | some call =>
    let popped := (found.unlink call).popId call
    ({ popped with byId := if popped.first.isNone then none else popped.byId }, found.slotOf call)

end PendingToolCalls

structure NativeChatToolPair (Body : Type u) where
  call : Option (NativeChatToolCallBlock Body)
  result : Option (NativeChatToolResultBlock Body)

section Pairing

variable {Body : Type u}

/-- The state of the scan: `limit` is `none` for infinity. -/
structure PairingScan (Body : Type u) where
  pairs : List (NativeChatToolPair Body)
  pending : PendingToolCalls
  unpaired : List ℕ

def PairingScan.initial : PairingScan Body := ⟨[], PendingToolCalls.initial, []⟩

def withinLimit (limit : Option ℕ) (pairCount : ℕ) : Bool := limit.all fun limit => pairCount < limit

def PairingScan.step (limit : Option ℕ) (scan : PairingScan Body) (index : ℕ) :
    NativeChatBlock Body → PairingScan Body
  | .toolCall call =>
    if withinLimit limit scan.pairs.length then
      { scan with
        pending := scan.pending.add scan.pairs.length call.callId
        pairs := scan.pairs ++ [⟨some call, none⟩] }
    else scan
  | .toolResult result =>
    let (pending, slot) := scan.pending.take result.callId
    match slot with
    | none =>
      { pairs :=
          if withinLimit limit scan.pairs.length then scan.pairs ++ [⟨none, some result⟩]
          else scan.pairs
        pending := pending
        unpaired := scan.unpaired ++ [index] }
    | some slot =>
      { scan with
        pending := pending
        pairs := scan.pairs.modify slot fun pair => { pair with result := some result } }
  | _ => scan

def pairToolBlocksFrom (limit : Option ℕ) (scan : PairingScan Body) (index : ℕ) :
    List (NativeChatBlock Body) → PairingScan Body
  | [] => scan
  | block :: rest =>
    if !withinLimit limit scan.pairs.length && scan.pending.isEmpty then scan
    else pairToolBlocksFrom limit (scan.step limit index block) (index + 1) rest

def pairToolBlocksReportingUnpaired (blocks : List (NativeChatBlock Body)) (limit : Option ℕ) :
    PairingScan Body :=
  pairToolBlocksFrom limit PairingScan.initial 0 blocks

def pairToolBlocks (blocks : List (NativeChatBlock Body)) (limit : Option ℕ) :
    List (NativeChatToolPair Body) :=
  (pairToolBlocksReportingUnpaired blocks limit).pairs

def unpairedToolResultIndices (blocks : List (NativeChatBlock Body)) : List ℕ :=
  (pairToolBlocksReportingUnpaired blocks none).unpaired

end Pairing

end OxeeUI.Chat
