import OxeeUI.Journal.ItemKeyText
import OxeeUI.Library.JsMap
import OxeeUI.Library.WrittenJson

/-!
# Lifecycle batch rows

A batch of item and tombstone mutations is written as one row.  The builder gives
each mutation its revision and owner, lets a person's stop decide how a turn ended,
and refuses a row over the mutation or the byte bound.
-/

namespace OxeeUI.Journal.BatchRows

open OxeeUI.Library OxeeUI.Journal.KeyText

/-- The members of an item body that have a value. -/
abbrev AgentJournalItemBody := List (Text × WrittenJson)

/-- `body[key]` -/
def member? (body : AgentJournalItemBody) (key : String) : Option WrittenJson :=
  body.lookup (unitsOf key)

def text? : WrittenJson → Option Text
  | .string value => some value
  | _ => none

def number? : WrittenJson → Option ℚ
  | .number value => some value.value
  | _ => none

def bodyKind (body : AgentJournalItemBody) : Option Text := (member? body "kind").bind text?

def isTurnBody (body : AgentJournalItemBody) : Bool := bodyKind body = some (unitsOf "turn")

structure AgentJournalProducerLinkage where
  agentId : Option Text
  parentAgentId : Option Text
  providerParentRef : Option Text
  producerKind : Option Text
  attempt : Option WrittenNumber

def AgentJournalProducerLinkage.none : AgentJournalProducerLinkage :=
  ⟨.none, .none, .none, .none, .none⟩

inductive JournalItemAddress where
  | identity (identity : ParsedJournalItemIdentity)
  | itemId (itemId : Text)

/-- An absent linkage is one without members.  `echoOf` is the declaration as it is written. -/
structure JournalItemMutationInput where
  address : JournalItemAddress
  echoOf : Option WrittenJson
  body : AgentJournalItemBody
  observedAt : Option WrittenNumber
  linkage : AgentJournalProducerLinkage
  turnScope : WrittenJson
  ownerFence : Option ℕ

inductive JournalLifecycleMutationInput where
  | item (input : JournalItemMutationInput)
  | tombstone (address : JournalItemAddress)

def JournalLifecycleMutationInput.address : JournalLifecycleMutationInput → JournalItemAddress
  | .item input => input.address
  | .tombstone address => address

def journalLifecycleMutationItemId (mutation : JournalLifecycleMutationInput) : Text :=
  match mutation.address with
  | .itemId itemId => itemId
  | .identity identity => (KeyText.agentJournalItemKey identity).getD []

structure JournalItemMutation where
  itemId : Text
  revision : ℕ
  body : AgentJournalItemBody
  observedAt : Option WrittenNumber
  echoOf : Option WrittenJson
  turnScope : WrittenJson
  ownerFence : ℕ
  linkage : AgentJournalProducerLinkage

inductive JournalLifecycleMutation where
  | item (mutation : JournalItemMutation)
  | tombstone (itemId : Text) (revision : ℕ)

def JournalLifecycleMutation.revision : JournalLifecycleMutation → ℕ
  | .item mutation => mutation.revision
  | .tombstone _ revision => revision

def journalLifecycleMutationRow (mutation : JournalLifecycleMutationInput) (itemId : Text)
    (revision ownerFence : ℕ) : JournalLifecycleMutation :=
  match mutation with
  | .item input =>
    .item {
      itemId
      revision
      body := input.body
      observedAt := input.observedAt
      echoOf := input.echoOf
      turnScope := input.turnScope
      ownerFence
      linkage := input.linkage }
  | .tombstone _ => .tombstone itemId revision

/-! ## What is written -/

def writtenMember (key : String) (value : WrittenJson) : List (Text × WrittenJson) :=
  [(unitsOf key, value)]

def optionalMember (key : String) (value : Option WrittenJson) : List (Text × WrittenJson) :=
  value.toList.map fun value => (unitsOf key, value)

def AgentJournalProducerLinkage.members (linkage : AgentJournalProducerLinkage) :
    List (Text × WrittenJson) :=
  optionalMember "agentId" (linkage.agentId.map .string) ++
    optionalMember "parentAgentId" (linkage.parentAgentId.map .string) ++
    optionalMember "providerParentRef" (linkage.providerParentRef.map .string) ++
    optionalMember "producerKind" (linkage.producerKind.map .string) ++
    optionalMember "attempt" (linkage.attempt.map .number)

def JournalLifecycleMutation.written : JournalLifecycleMutation → WrittenJson
  | .item mutation =>
    .object (writtenMember "kind" (.string (unitsOf "item")) ++
      writtenMember "itemId" (.string mutation.itemId) ++
      writtenMember "revision" (.natural mutation.revision) ++
      writtenMember "body" (.object mutation.body) ++
      optionalMember "observedAt" (mutation.observedAt.map .number) ++
      optionalMember "echoOf" mutation.echoOf ++
      writtenMember "turnScope" mutation.turnScope ++
      writtenMember "ownerFence" (.natural mutation.ownerFence) ++
      mutation.linkage.members)
  | .tombstone itemId revision =>
    .object (writtenMember "kind" (.string (unitsOf "tombstone")) ++
      writtenMember "itemId" (.string itemId) ++
      writtenMember "revision" (.natural revision))

structure JournalLifecycleBatchRow where
  v : ℕ
  epoch : Text
  seq : ℕ
  fence : ℕ
  ts : ℕ
  settlementId : Text
  mutations : List JournalLifecycleMutation
  recovered : Bool

def recoveredMember (recovered : Bool) : List (Text × WrittenJson) :=
  if recovered then writtenMember "recovered" (.boolean true) else []

def JournalLifecycleBatchRow.writtenMutations (row : JournalLifecycleBatchRow) : WrittenJson :=
  .array (row.mutations.map JournalLifecycleMutation.written)

/-- The row with its members in the order the builder gives them. -/
def JournalLifecycleBatchRow.written (row : JournalLifecycleBatchRow) : WrittenJson :=
  .object (writtenMember "kind" (.string (unitsOf "lifecycle-batch")) ++
    writtenMember "settlementId" (.string row.settlementId) ++
    writtenMember "mutations" row.writtenMutations ++
    writtenMember "v" (.natural row.v) ++
    writtenMember "epoch" (.string row.epoch) ++
    writtenMember "seq" (.natural row.seq) ++
    writtenMember "fence" (.natural row.fence) ++
    writtenMember "ts" (.natural row.ts) ++
    recoveredMember row.recovered)

def agentSessionJournalTurnItemSchemaVersion : ℕ := 3

def agentSessionJournalPreTurnSchemaVersion : ℕ := 2

def journalRowSchemaVersion (bodies : List AgentJournalItemBody) : ℕ :=
  if bodies.any isTurnBody then agentSessionJournalTurnItemSchemaVersion
  else agentSessionJournalPreTurnSchemaVersion

/-! ## The builder -/

def maxJournalLifecycleBatchBytes : ℕ := 1500000

def maxJournalLifecycleBatchMutations : ℕ := 200

structure JournalStopEvent where
  reason : Text
  turnId : Option Text
  /-- `at` -/
  stoppedAt : ℚ

structure JournalStopSettle where
  settling : Bool
  turnId : Option Text

structure JournalLatestStop where
  event : JournalStopEvent
  settle : Option JournalStopSettle

structure JournalStoredItem where
  revision : ℕ
  body : AgentJournalItemBody

/-- What the builder reads of the reducer's state. -/
structure JournalReducerState where
  epoch : Text
  aliases : JsMap Text Text
  items : JsMap Text JournalStoredItem
  tombstones : JsMap Text ℕ
  itemFences : JsMap Text ℕ
  latestStop : Option JournalLatestStop

def JournalReducerState.resolve (state : JournalReducerState) (itemId : Text) : Text :=
  (state.aliases.get? itemId).getD itemId

/-- The revision of a write and the revisions given so far. -/
def nextJournalItemRevision (state : JournalReducerState) (itemId : Text)
    (revisions : JsMap Text ℕ) : ℕ × JsMap Text ℕ :=
  let resolved := state.resolve itemId
  let stored := max (((state.items.get? resolved).map (·.revision)).getD 0)
    ((state.tombstones.get? resolved).getD 0)
  let revision := (revisions.get? resolved).getD stored + 1
  (revision, revisions.set resolved revision)

/-- Revisions retain the creator's owner. -/
def journalItemOwnerFence (state : JournalReducerState) (resolvedItemId : Text) (fence : ℕ)
    (ownerFence : Option ℕ) : ℕ :=
  let kept :=
    if state.items.has resolvedItemId then state.itemFences.get? resolvedItemId else none
  kept.getD (ownerFence.getD fence)

def stopIsAPersons (reason : Text) : Bool :=
  reason = unitsOf "user-stop" || reason = unitsOf "user-close"

/-- A session-ending stop owns every turn ending while it settles; a targeted one its turn. -/
def stopIsTurnCancellation (stop : JournalLatestStop) (turnId : Option Text) : Bool :=
  stopIsAPersons stop.event.reason &&
    (stop.settle.any (·.settling) || stop.settle.bind (·.turnId) = turnId ||
      stop.event.turnId = turnId)

/-- Ends observed before the stop keep their meaning. -/
def stopEndsTurnAsCancellation (state : JournalReducerState) (turnId : Option Text)
    (endedAt : Option ℚ) : Bool :=
  state.latestStop.any fun stop =>
    stopIsTurnCancellation stop turnId && endedAt.all fun ended => stop.event.stoppedAt ≤ ended

/-- The members of the turn that a turn item or a legacy status row carries. -/
def readAgentJournalTurn (body : AgentJournalItemBody) : Option AgentJournalItemBody :=
  if isTurnBody body then some (body.filter fun member => member.1 ≠ unitsOf "kind")
  else if bodyKind body = some (unitsOf "status") then
    match member? body "turnLifecycle" with
    | none | some .null => none
    | some (.object turn) => some turn
    | some _ => some []
  else none

def isUnjudgedInterruption (body : AgentJournalItemBody) : Bool :=
  isTurnBody body && (member? body "state").bind text? = some (unitsOf "interrupted") &&
    (member? body "outcome").isNone

/-- `{ ...body, outcome: 'cancellation' }` of a body without an outcome -/
def cancelledTurn (body : AgentJournalItemBody) : AgentJournalItemBody :=
  body ++ writtenMember "outcome" (.string (unitsOf "cancellation"))

def isOpenTurnState (state : Option Text) : Bool :=
  state = some (unitsOf "running") || state = some (unitsOf "unverifiable")

/-- A person's stop decides a turn that has not ended before it. -/
def turnEndAfterStop (state : JournalReducerState) (itemId : Text) (body : AgentJournalItemBody) :
    AgentJournalItemBody :=
  if isUnjudgedInterruption body then
    let previous := (state.items.get? itemId).bind fun item => readAgentJournalTurn item.body
    if previous.all fun turn => isOpenTurnState ((member? turn "state").bind text?) then
      if stopEndsTurnAsCancellation state ((member? body "turnId").bind text?)
          ((member? body "completedAt").bind number?) then
        cancelledTurn body
      else body
    else body
  else body

/-- `options` of the builder. -/
structure JournalLifecycleBatchOptions where
  fence : ℕ
  recovered : Bool

def JournalLifecycleMutationInput.ownerFence : JournalLifecycleMutationInput → Option ℕ
  | .item input => input.ownerFence
  | .tombstone _ => none

def JournalLifecycleMutationInput.mapBody
    (change : AgentJournalItemBody → AgentJournalItemBody) :
    JournalLifecycleMutationInput → JournalLifecycleMutationInput
  | .item input => .item { input with body := change input.body }
  | .tombstone address => .tombstone address

/-- The mutations of a row, each outranking what was stored and planned before it. -/
def builtMutations (state : JournalReducerState) (options : JournalLifecycleBatchOptions) :
    JsMap Text ℕ → List JournalLifecycleMutationInput → List JournalLifecycleMutation
  | _, [] => []
  | revisions, mutation :: mutations =>
    let itemId := journalLifecycleMutationItemId mutation
    let resolved := state.resolve itemId
    let next := nextJournalItemRevision state itemId revisions
    journalLifecycleMutationRow (mutation.mapBody (turnEndAfterStop state resolved)) itemId next.1
        (journalItemOwnerFence state resolved options.fence mutation.ownerFence) ::
      builtMutations state options next.2 mutations

def itemBodies (mutations : List JournalLifecycleMutation) : List AgentJournalItemBody :=
  mutations.filterMap fun mutation =>
    match mutation with
    | .item content => some content.body
    | .tombstone _ _ => none

inductive JournalLifecycleBatchError where
  | mutationBoundExceeded
  | byteBoundExceeded

def JournalLifecycleBatchError.message : JournalLifecycleBatchError → String
  | .mutationBoundExceeded => "journal_lifecycle_batch_mutation_bound_exceeded"
  | .byteBoundExceeded => "journal_lifecycle_batch_byte_bound_exceeded"

def lifecycleBatchRow (state : JournalReducerState) (settlementId : Text)
    (mutations : List JournalLifecycleMutationInput) (options : JournalLifecycleBatchOptions)
    (revisions : JsMap Text ℕ) (seq ts : ℕ) : JournalLifecycleBatchRow :=
  let built := builtMutations state options revisions mutations
  { v := journalRowSchemaVersion (itemBodies built)
    epoch := state.epoch
    seq
    fence := options.fence
    ts
    settlementId
    mutations := built
    recovered := options.recovered }

def journalLifecycleBatchRowBuilder (state : JournalReducerState) (settlementId : Text)
    (mutations : List JournalLifecycleMutationInput) (options : JournalLifecycleBatchOptions)
    (revisions : JsMap Text ℕ) (seq ts : ℕ) :
    Except JournalLifecycleBatchError JournalLifecycleBatchRow :=
  if mutations.length = 0 ∨ maxJournalLifecycleBatchMutations < mutations.length then
    .error .mutationBoundExceeded
  else
    let row := lifecycleBatchRow state settlementId mutations options revisions seq ts
    if maxJournalLifecycleBatchBytes < row.written.bytes + 1 then .error .byteBoundExceeded
    else .ok row

end OxeeUI.Journal.BatchRows
