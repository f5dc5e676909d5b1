import OxeeUI.Journal.Types

/-!
# Journal rows

One row is a common base and the content of its kind.  An optional member of a
row is an `Option`; an annotation the fold checks itself stays a plain value.
-/

namespace OxeeUI.Journal

open OxeeUI.Library

structure JournalRowBase where
  epoch : String
  seq : Nat
  fence : Int
  ts : Int
  recovered : Bool
  turnScope : Option AgentJournalTurnScope
  producer : AgentJournalProducerLinkage

inductive AgentJournalEpochReason where
  | sessionCreated | legacyImport | corruption | unreconcilablePrefix | handleForked
  | schemaUnreadable
deriving DecidableEq

structure JournalEpochContent where
  reason : AgentJournalEpochReason
  providerHandle : JsValue
  historyOrigin : JsValue

structure JournalItemContent where
  itemId : String
  revision : Int
  body : AgentJournalItemBody
  ownerFence : Option Int
  executionOwner : Option Int
  /-- Present when the row declares which submission it echoes. -/
  echoOf : Option JsValue

structure JournalTombstoneContent where
  itemId : String
  revision : Int
  stopEvent : JsValue
  queueResume : JsValue
  queueReopen : JsValue
  queueReopenSince : JsValue
  queueClear : JsValue
  retireSubmission : Bool

structure JournalSubmissionContent where
  clientMessageId : String
  payloadFingerprint : String
  body : AgentJournalMessageItem
  handoverRecorded : Bool
  queuedMessageId : Option String
  origin : Option JournalSubmissionOrigin
  source : JsValue
  options : JsValue

structure JournalDispatchContent where
  clientMessageId : String
  state : AgentJournalDispatchState
  providerItemId : Option String
  reason : Option String
  carries : List String
  rejection : JsValue
  keptAsQueuedMessageId : Option String
  answeredInTurn : JsValue

inductive JournalLifecycleMutation where
  | item (content : JournalItemContent) (producer : AgentJournalProducerLinkage)
      (turnScope : Option AgentJournalTurnScope) (observedAt : Option Int)
  | tombstone (itemId : String) (revision : Int)

structure JournalQueuedChange where
  body : AgentJournalMessageItem
  position : Int
  queuedAt : Option AgentJournalCursor
  holdReason : Option String
  options : JsValue
  attempt : Option String
  /-- Refusal facts, kept only when their original hand-off rows are gone. -/
  returned : Option (Option String × JsValue)

inductive JournalQueueChange where
  | queued (change : JournalQueuedChange)
  | edited (body : AgentJournalMessageItem)
  | moved (position : Int)
  | held (holdReason : String)
  | withdrawn

inductive JournalRowContent where
  | epoch (content : JournalEpochContent)
  | item (content : JournalItemContent)
  | tombstone (content : JournalTombstoneContent)
  | submission (content : JournalSubmissionContent)
  | dispatch (content : JournalDispatchContent)
  | lifecycleBatch (settlementId : String) (mutations : List JournalLifecycleMutation)
  | queue (messageId : String) (change : JournalQueueChange)

structure JournalRow where
  base : JournalRowBase
  content : JournalRowContent

/-- Any marker value suppresses removal, including values from newer builds. -/
def isJournalStopOrResumeRow (content : JournalTombstoneContent) : Bool :=
  content.stopEvent ≠ .undefined || content.queueResume ≠ .undefined ||
    content.queueReopen ≠ .undefined || content.queueClear ≠ .undefined

end OxeeUI.Journal

/-!
## The reducer's state and its item fold

Items and tombstones are two maps over the same keys.  A write is applied only
when its revision is newer than both; a removal leaves its revision behind.
-/

namespace OxeeUI.Journal

open OxeeUI.Library

structure JournalQueueClear where
  operationId : String
  messageIds : List String
  lifted : Bool
  sequence : Nat

structure JournalQueuePauseMarks where
  cleared : Option JournalQueueClear
  latestStop : Option (Nat × JsValue)
  resumedSequence : Nat
  reopenedSequence : Nat

structure JournalHistoryOrigin where
  providerHandle : JsValue
  raw : JsValue

/-- Where a hand-off put the message it delivered. -/
structure JournalPlace where
  sequence : Nat
  observedAt : Int
  turnScope : AgentJournalTurnScope

structure JournalQueueState where
  cards : JsMap String QueuedMessageRow
  revision : Nat

structure JournalReducerState where
  sessionId : String
  epoch : String
  lastSequence : Nat
  lastActivityAt : Int
  highestFence : Int
  items : JsMap String AgentJournalRenderItem
  itemFences : JsMap String Int
  itemExecutionOwners : JsMap String Int
  providerActivityAt : JsMap Int Int
  tombstones : JsMap String Int
  removedTurnIds : List String
  submissions : JsMap String AgentJournalSubmission
  receipts : JsMap String AgentJournalAcceptanceReceipt
  aliases : JsMap String String
  itemEchoes : JsMap String JsValue
  appliedSettlementIds : List String
  /-- `derivedTurnScope.openTurnItemId`. -/
  openTurnItemId : Option String
  latestAcceptedTurnSequence : Nat
  queuePauseMarks : JournalQueuePauseMarks
  stoppedHistoryCarried : JsMap String (List String)
  queuedHandOffPlaces : JsMap String JournalPlace
  normalizedHandOffs : List String
  queue : JournalQueueState
  historyOrigin : Option JournalHistoryOrigin

def createJournalQueuePauseMarks : JournalQueuePauseMarks := ⟨none, none, 0, 0⟩

def createJournalQueueState : JournalQueueState := ⟨.empty, 0⟩

def createJournalReducerState (sessionId epoch : String) : JournalReducerState where
  sessionId := sessionId
  epoch := epoch
  lastSequence := 0
  lastActivityAt := 0
  highestFence := 0
  items := .empty
  itemFences := .empty
  itemExecutionOwners := .empty
  providerActivityAt := .empty
  tombstones := .empty
  removedTurnIds := []
  submissions := .empty
  receipts := .empty
  aliases := .empty
  itemEchoes := .empty
  appliedSettlementIds := []
  openTurnItemId := none
  latestAcceptedTurnSequence := 0
  queuePauseMarks := createJournalQueuePauseMarks
  stoppedHistoryCarried := .empty
  queuedHandOffPlaces := .empty
  normalizedHandOffs := []
  queue := createJournalQueueState
  historyOrigin := none

/-- `set.add(value)`, oldest first. -/
def addOnce (values : List String) (value : String) : List String :=
  if value ∈ values then values else values ++ [value]

/-! ## Derived turn scope -/

/-- `derivedTurnScope.scopeFor(body)`. -/
def scopeFor (openTurnItemId : Option String) (body : AgentJournalItemBody) :
    AgentJournalTurnScope :=
  match openTurnItemId, readAgentJournalTurn (some body) with
  | some turnItemId, none => .turn turnItemId
  | _, _ => .thread

/-- `derivedTurnScope.observe(...)`: only session-owned turns open spans. -/
def observeTurn (openTurnItemId : Option String) (itemId : String) (root : Bool)
    (before after : Option AgentJournalItemBody) : Option String :=
  if isAgentSessionContextClear after then none
  else
    let turn := readAgentJournalTurn after
    if before.isNone && turn.isSome && root then some itemId
    else if openTurnItemId = some itemId &&
        (readAgentJournalTurn before).any (·.state = .running) &&
        !turn.any (·.state = .running) then none
    else openTurnItemId

def statedOrDerivedTurnScope (state : JournalReducerState)
    (turnScope : Option AgentJournalTurnScope) (body : AgentJournalItemBody) :
    AgentJournalTurnScope :=
  turnScope.getD (scopeFor state.openTurnItemId body)

/-! ## Item fold -/

structure JournalItemFences where
  fence : Int
  ownerFence : Option Int
  executionOwner : Option Int

/-- `journalItemRevisionIsStale`: not newer than the item, nor than its tombstone. -/
def journalItemRevisionIsStale (state : JournalReducerState) (itemId : String)
    (revision : Int) : Bool :=
  (state.tombstones.get? itemId).any (revision ≤ ·) ||
    (state.items.get? itemId).any (revision ≤ ·.revision)

/-- What a revision leaves of the item it revises: its position, its time, and the
text of a submitted message, which provider history may have normalized. -/
def revisedJournalItem (ordinalOf : String → Option Nat) (itemId : String)
    (existing next : AgentJournalRenderItem) : AgentJournalRenderItem :=
  let submitted := existing.body.isUserMessage &&
    (parseAgentJournalItemKey ordinalOf itemId).any (·.isOrca)
  { next with
    producer := if next.producer.namesProducer then next.producer else existing.producer
    body := if submitted then existing.body else next.body
    sequence := existing.sequence
    sequenceIndex := existing.sequenceIndex
    observedAt := existing.observedAt
    turnScope := existing.turnScope <|> next.turnScope }

def upsertJournalItem (env : JournalEnvironment) (state : JournalReducerState)
    (itemId : String) (revision : Int) (next : AgentJournalRenderItem)
    (fences : JournalItemFences) : JournalReducerState :=
  if journalItemRevisionIsStale state itemId revision then state
  else
    let existing := state.items.get? itemId
    let itemExecutionOwners := match fences.executionOwner with
      | some owner => state.itemExecutionOwners.set itemId owner
      | none => state.itemExecutionOwners
    { state with
      openTurnItemId :=
        observeTurn state.openTurnItemId itemId next.isRoot (existing.map (·.body)) (some next.body)
      itemExecutionOwners := itemExecutionOwners
      items := state.items.set itemId <| match existing with
        | none => next
        | some existing => revisedJournalItem env.ordinalOf itemId existing next
      itemFences := match existing with
        | none => state.itemFences.set itemId (fences.ownerFence.getD fences.fence)
        | some _ => state.itemFences
      tombstones := state.tombstones.delete itemId }

def removeJournalItem (state : JournalReducerState) (itemId : String) (revision : Int) :
    JournalReducerState :=
  if journalItemRevisionIsStale state itemId revision then state
  else
    let existing := state.items.get? itemId
    { state with
      openTurnItemId := match existing with
        | none => state.openTurnItemId
        | some existing =>
          observeTurn state.openTurnItemId itemId existing.isRoot (some existing.body) none
      removedTurnIds :=
        match readAgentJournalTurn (existing.map (·.body)) with
        | some turn => addOnce state.removedTurnIds turn.turnId
        | none => state.removedTurnIds
      tombstones := state.tombstones.set itemId revision
      items := state.items.delete itemId
      itemFences := state.itemFences.delete itemId
      itemExecutionOwners := state.itemExecutionOwners.delete itemId }

end OxeeUI.Journal
