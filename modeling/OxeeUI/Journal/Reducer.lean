import OxeeUI.Journal.QueueFold

/-!
# The journal reducer

Live append and replay share this fold: the facts of a row first, then the queue
cards it moves.
-/

namespace OxeeUI.Journal

open OxeeUI.Library

def maxJournalAppliedSettlementIds : Nat := 4096

/-- Remember a settlement; the oldest ones are forgotten past the limit. -/
def rememberAppliedSettlementId (settled : List String) (settlementId : String) : List String :=
  let remembered := addOnce settled settlementId
  remembered.drop (remembered.length - maxJournalAppliedSettlementIds)

/-! ## Queue pause marks -/

def isReadableStopEvent (value : JsValue) : Bool :=
  (value.member "reason").string?.isSome && (value.member "at").number?.isSome

/-- `isReadableQueueClear`, with the clear it reads. -/
def readQueueClear (value : JsValue) (sequence : Nat) : Option JournalQueueClear :=
  match value.member "operationId", value.member "messageIds" with
  | .string operationId, .array messageIds => do
    let ids ← messageIds.mapM fun id => nonempty? id.string?
    if operationId ≠ "" ∧
        (value.hasOwn "lifted" = false ∨ value.member "lifted" = .boolean true) then
      some ⟨operationId, ids, value.hasOwn "lifted", sequence⟩
    else none
  | _, _ => none

def foldJournalQueuePauseMark (marks : JournalQueuePauseMarks) (row : JournalRowBase)
    (content : JournalTombstoneContent) : JournalQueuePauseMarks :=
  if isReadableStopEvent content.stopEvent then
    { marks with latestStop := some (row.seq, content.stopEvent) }
  else if content.queueResume = .boolean true then
    { marks with resumedSequence := row.seq }
  else if content.queueReopen = .boolean true then
    -- Late reopen marks must not narrow earlier boundaries.
    let start := match content.queueReopenSince with
      | .number since => if 0 < since ∧ since ≤ row.seq then since.toNat else row.seq
      | _ => row.seq
    { marks with reopenedSequence := max marks.reopenedSequence start }
  else
    match readQueueClear content.queueClear row.seq with
    | some cleared => { marks with cleared := some cleared }
    | none => marks

/-! ## Provider activity -/

def isProviderActivity (body : AgentJournalItemBody) : Bool :=
  match body with
  | .message item => item.role ≠ .user
  | .toolCall endedAs _ => endedAs.isNone
  | .approval resolution _ | .question resolution _ => resolution = .pending
  | .diff _ | .status _ _ _ _ | .turn _ =>
    match readAgentJournalTurn (some body) with
    | some turn => turn.state = .running
    | none => true

/-- Codex detail rows use the host's own ids; fallback rows identify their provider. -/
def countsAsProviderOutput (identity : AgentJournalItemIdentity) (body : AgentJournalItemBody) :
    Bool :=
  match identity with
  | .orca clientMessageId =>
    (afterStart? "codex-item:".toList clientMessageId.toList).isSome ||
      match body with
      | .status _ _ providerFrame _ => providerFrame.isSome
      | _ => false
  | _ => true

def observeJournalProviderActivity (env : JournalEnvironment) (state : JournalReducerState)
    (recovered : Bool) (itemId : String) (body : AgentJournalItemBody) (savedAt fence : Int) :
    JournalReducerState :=
  if !recovered && isProviderActivity body &&
      (parseAgentJournalItemKey env.ordinalOf itemId).any (countsAsProviderOutput · body) then
    { state with
      providerActivityAt := state.providerActivityAt.set fence
        (max ((state.providerActivityAt.get? fence).getD 0) savedAt) }
  else state

def journalItemExecutionFence (state : JournalReducerState) (itemId : String) : Option Int :=
  state.itemExecutionOwners.get? itemId <|> state.itemFences.get? itemId

/-! ## Echoes -/

def isProviderUserMessageEcho (env : JournalEnvironment) (itemId : String)
    (body : AgentJournalItemBody) : Bool :=
  body.isUserMessage && (parseAgentJournalItemKey env.ordinalOf itemId).any (!·.isOrca)

/-- The sequence of the latest context clear, 0 when there is none. -/
def latestAgentSessionContextClearSequence (items : List AgentJournalRenderItem) : Nat :=
  items.foldl
    (fun sequence item =>
      if sequence < item.sequence && isAgentSessionContextClear (some item.body) then
        item.sequence
      else sequence) 0

/-- Whether a submission may claim an echo of the given fingerprint. -/
def mayClaimEcho (state : JournalReducerState) (contextSequence : Nat) (fingerprint : String)
    (candidate : AgentJournalSubmission) : Bool :=
  (contextSequence = 0 || contextSequence < candidate.acceptedSequence.getD 0) &&
    candidate.dispatchState ≠ .rejected &&
    !isWriteFailureSubmission candidate &&
    candidate.payloadFingerprint = fingerprint &&
    (state.items.get? (agentJournalSubmissionKey candidate.clientMessageId)).any
      (·.revision = 0)

/-- Insert before the first later send, so equal times keep their order. -/
def insertBySubmittedAt (submission : AgentJournalSubmission) :
    List AgentJournalSubmission → List AgentJournalSubmission
  | [] => [submission]
  | first :: rest =>
    if submission.submittedAt < first.submittedAt then submission :: first :: rest
    else first :: insertBySubmittedAt submission rest

/-- The stable sort by `submittedAt`. -/
def sortBySubmittedAt (submissions : List AgentJournalSubmission) :
    List AgentJournalSubmission :=
  submissions.foldl (fun sorted submission => insertBySubmittedAt submission sorted) []

/-- Find an echo's eligible submission without claiming it. -/
def journalEchoClaimant (env : JournalEnvironment) (state : JournalReducerState)
    (itemId : String) (body : AgentJournalItemBody) : Option String :=
  if state.itemEchoes.has itemId || !isProviderUserMessageEcho env itemId body then none
  else
    let fingerprint := env.agentSessionSendBodyFingerprint state.sessionId body
    let contextSequence := latestAgentSessionContextClearSequence state.items.values
    -- Match equal payloads in send order.
    ((sortBySubmittedAt state.submissions.values).find?
      (mayClaimEcho state contextSequence fingerprint)).map
        fun submission => agentJournalSubmissionKey submission.clientMessageId

/-- `resolveItemId`: where the aliases send an item id. -/
def resolveAlias (state : JournalReducerState) (itemId : String) : String :=
  (state.aliases.get? itemId).getD itemId

/-- The item a write addresses, and the state after it claimed its submission. -/
def resolveJournalItemId (env : JournalEnvironment) (state : JournalReducerState)
    (itemId : String) (body : AgentJournalItemBody) : JournalReducerState × String :=
  match nonempty? (state.aliases.get? itemId) with
  | some aliased => (state, aliased)
  | none =>
    match journalEchoClaimant env state itemId body with
    | none => (state, itemId)
    | some submissionId =>
      ({ state with aliases := state.aliases.set itemId submissionId }, submissionId)

/-! ## Rows -/

def declareItemEcho (state : JournalReducerState) (itemId : String) (echoOf : Option JsValue) :
    JournalReducerState :=
  match echoOf with
  | some declared =>
    if state.itemEchoes.has itemId then state
    else { state with itemEchoes := state.itemEchoes.set itemId declared }
  | none => state

/-- Resolve a written item: declare its echo, claim its submission, accept it. -/
def claimJournalItem (env : JournalEnvironment) (state : JournalReducerState)
    (row : JournalRowBase) (content : JournalItemContent) : JournalReducerState × String :=
  let declared := declareItemEcho state content.itemId content.echoOf
  let (resolved, itemId) := resolveJournalItemId env declared content.itemId content.body
  if resolved.itemEchoes.has content.itemId then (resolved, itemId)
  else (acceptSubmissionFromProviderItem resolved content.itemId itemId row, itemId)

def applyJournalItemRow (env : JournalEnvironment) (state : JournalReducerState)
    (row : JournalRowBase) (savedAt : Int) (content : JournalItemContent) :
    JournalReducerState :=
  if journalItemRevisionIsStale state content.itemId content.revision then state
  else
    let (claimed, itemId) := claimJournalItem env state row content
    let written := upsertJournalItem env claimed itemId content.revision
      (journalRenderItem itemId content.revision content.body row
        (statedOrDerivedTurnScope claimed row.turnScope content.body) row.producer 0)
      ⟨row.fence, content.ownerFence, content.executionOwner⟩
    observeJournalProviderActivity env written row.recovered content.itemId content.body savedAt
      ((journalItemExecutionFence written itemId).getD row.fence)

def applyJournalTombstoneRow (env : JournalEnvironment) (state : JournalReducerState)
    (row : JournalRowBase) (content : JournalTombstoneContent) : JournalReducerState :=
  if isJournalStopOrResumeRow content then
    { state with
      queuePauseMarks := foldJournalQueuePauseMark state.queuePauseMarks row content }
  else
    let removed := removeJournalItem state (resolveAlias state content.itemId) content.revision
    if content.retireSubmission then retireRewoundJournalSubmission env removed content.itemId
    else removed

def applyJournalLifecycleMutation (env : JournalEnvironment) (row : JournalRowBase)
    (savedAt : Int) (state : JournalReducerState)
    (indexed : JournalLifecycleMutation × Nat) : JournalReducerState :=
  match indexed with
  | (.tombstone itemId revision, _) =>
    removeJournalItem state (resolveAlias state itemId) revision
  | (.item content producer turnScope observedAt, sequenceIndex) =>
    if journalItemRevisionIsStale state content.itemId content.revision then state
    else
      let (claimed, itemId) := claimJournalItem env state row content
      let item := journalRenderItem itemId content.revision content.body row
        (statedOrDerivedTurnScope claimed turnScope content.body)
        (journalBatchMutationProducer row.producer producer) sequenceIndex
      let written := upsertJournalItem env claimed itemId content.revision
        { item with observedAt := observedAt.getD row.ts }
        ⟨row.fence, content.ownerFence, none⟩
      observeJournalProviderActivity env written row.recovered content.itemId content.body
        savedAt ((journalItemExecutionFence written itemId).getD row.fence)

def applyJournalLifecycleBatch (env : JournalEnvironment) (state : JournalReducerState)
    (row : JournalRowBase) (savedAt : Int) (settlementId : String)
    (mutations : List JournalLifecycleMutation) : JournalReducerState :=
  if settlementId ∈ state.appliedSettlementIds then state
  else
    let settled := mutations.zipIdx.foldl (applyJournalLifecycleMutation env row savedAt) state
    { settled with
      appliedSettlementIds :=
        rememberAppliedSettlementId settled.appliedSettlementIds settlementId }

def journalHistoryOrigin (row : JournalRowBase) (content : JournalEpochContent) :
    Option JournalHistoryOrigin :=
  if content.reason = .legacyImport then
    some ⟨content.providerHandle,
      .object
        [("version", .number 1), ("kind", .string "legacy_import"),
         ("providerHandle", content.providerHandle), ("importedAt", .number row.ts)]⟩
  else if content.historyOrigin = .undefined then none
  else some ⟨content.providerHandle, content.historyOrigin⟩

def noteJournalRow (state : JournalReducerState) (row : JournalRowBase) : JournalReducerState :=
  { state with
    lastSequence := max state.lastSequence row.seq
    highestFence := max state.highestFence row.fence }

/-- Queued cards cannot extend working status or postpone idle sweeps. -/
def noteJournalActivity (state : JournalReducerState) (row : JournalRowBase) :
    JournalReducerState :=
  { noteJournalRow state row with lastActivityAt := max state.lastActivityAt row.ts }

def applyJournalRowFacts (env : JournalEnvironment) (state : JournalReducerState)
    (row : JournalRow) (savedAt : Int) : JournalReducerState :=
  match row.content with
  | .epoch content =>
    { noteJournalRow state row.base with historyOrigin := journalHistoryOrigin row.base content }
  | .queue _ _ => noteJournalRow state row.base
  | .item content =>
    applyJournalItemRow env (noteJournalActivity state row.base) row.base savedAt content
  | .tombstone content =>
    applyJournalTombstoneRow env (noteJournalActivity state row.base) row.base content
  | .lifecycleBatch settlementId mutations =>
    applyJournalLifecycleBatch env (noteJournalActivity state row.base) row.base savedAt
      settlementId mutations
  | .submission content =>
    applyJournalSubmission env (noteJournalActivity state row.base) row.base content
  | .dispatch content =>
    applyJournalDispatchRow env (noteJournalActivity state row.base) row.base content

/-- `applyJournalRow(state, row, savedAt)`. -/
def applyJournalRowSavedAt (env : JournalEnvironment) (state : JournalReducerState)
    (row : JournalRow) (savedAt : Int) : JournalReducerState :=
  foldJournalQueueRow env (applyJournalRowFacts env state row savedAt) row

/-- `applyJournalRow(state, row)`: saved when it was written. -/
def applyJournalRow (env : JournalEnvironment) (state : JournalReducerState) (row : JournalRow) :
    JournalReducerState :=
  applyJournalRowSavedAt env state row row.base.ts

/-- The state a journal's rows fold into. -/
def replayJournal (env : JournalEnvironment) (sessionId epoch : String) (rows : List JournalRow) :
    JournalReducerState :=
  rows.foldl (applyJournalRow env) (createJournalReducerState sessionId epoch)

theorem replayJournal_append (env : JournalEnvironment) (sessionId epoch : String)
    (early late : List JournalRow) :
    replayJournal env sessionId epoch (early ++ late) =
      late.foldl (applyJournalRow env) (replayJournal env sessionId epoch early) :=
  List.foldl_append

theorem replayJournal_snoc (env : JournalEnvironment) (sessionId epoch : String)
    (rows : List JournalRow) (row : JournalRow) :
    replayJournal env sessionId epoch (rows ++ [row]) =
      applyJournalRow env (replayJournal env sessionId epoch rows) row := by
  rw [replayJournal_append, List.foldl_cons, List.foldl_nil]

/-! ## Evaluating closed journals -/

/-- An environment to run the fold in: decimal ordinals, and no options to read. -/
def plainEnvironment : JournalEnvironment where
  agentSessionSendBodyFingerprint sessionId _ := "fingerprint of " ++ sessionId
  digestPayload payload := payload
  ordinalOf value :=
    if value ≠ "" ∧ value.toList.all Char.isDigit then
      some (value.toList.foldl (fun total digit => 10 * total + (digit.toNat - '0'.toNat)) 0)
    else none
  failureDetails _ := .undefined
  readAgentSessionExecutionOptions _ := none

/-- A live row of the session's own agent. -/
def plainRow (seq : Nat) (content : JournalRowContent) : JournalRow :=
  ⟨⟨"epoch", seq, 1, seq, false, none, .none⟩, content⟩

def plainMessage : AgentJournalMessageItem := ⟨.user, none, .null⟩

def plainSubmission (clientMessageId : String) (queuedMessageId : Option String) :
    JournalRowContent :=
  .submission ⟨clientMessageId, "fingerprint of session", plainMessage, false, queuedMessageId,
    none, .undefined, .undefined⟩

def plainDispatch (clientMessageId : String) (state : AgentJournalDispatchState)
    (providerItemId reason : Option String) (rejection : JsValue) : JournalRowContent :=
  .dispatch ⟨clientMessageId, state, providerItemId, reason, [], rejection, none, .undefined⟩

def plainQueued (messageId : String) (attempt : Option String) : JournalRowContent :=
  .queue messageId (.queued ⟨plainMessage, 0, none, none, .undefined, attempt, none⟩)

end OxeeUI.Journal
