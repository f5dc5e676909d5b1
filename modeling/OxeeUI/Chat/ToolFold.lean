import OxeeUI.Chat.ToolPairs
import OxeeUI.Library.JsonText

/-!
# Folding tool messages

Tool-only messages, and the results of harness sidecars, join the row of the
assistant before them.  Results that no call of their row answers then leave it:
named ones get a row of their own, unnamed ones are dropped.
-/

namespace OxeeUI.Chat

open OxeeUI.Library

universe u

variable {Body : Type u}

section Messages

variable (toLowerCase : Text → Text) (message : NativeChatMessage Body)

def isToolOnlyMessage : Bool :=
  !message.blocks.isEmpty && message.blocks.all fun block => block.isToolCall || block.isToolResult

def isInterruptionBoundary : Bool :=
  (message.blocks.filterMap NativeChatBlock.text?).any fun block =>
    (unitsOf "[request interrupted").isPrefixOf (toLowerCase (trimText block.text))

def isHarnessSidecarToolMessage : Bool :=
  if message.role ≠ .user || isInterruptionBoundary toLowerCase message ||
      !message.blocks.any NativeChatBlock.isToolResult then false
  else
    message.blocks.any NativeChatBlock.isText &&
      message.blocks.all fun block =>
        block.isToolResult ||
          block.text?.any fun block => isKnownHarnessInjectedUserTurnText toLowerCase block.text

def isSubagentRosterMessage : Bool := message.blocks.any NativeChatBlock.isSubagentGroup

def isBackgroundTaskMessage : Bool := message.blocks.any NativeChatBlock.isBackgroundTask

def isUndrawnProviderFrameMessage : Bool :=
  isWordlessProviderFrameMessage message &&
    !(message.blocks.filterMap NativeChatBlock.text?).any fun block =>
      block.providerFrame.any fun frame =>
        frame.provider = unitsOf "codex" && frame.kind = codexPlanUpdatedFrameKind

/-- A message that is no assistant's and ends the run before it. -/
def endsToolRun : Bool :=
  !isSubagentRosterMessage message && !isBackgroundTaskMessage message &&
    !isUndrawnProviderFrameMessage message &&
    (!message.isNoiseMessage toLowerCase || isInterruptionBoundary toLowerCase message)

end Messages

/-- The blocks of one source message within a row. -/
structure ToolContribution (Body : Type u) where
  source : NativeChatMessage Body
  blocks : List (NativeChatBlock Body)
  start : ℕ
  insertAt : ℕ
  sourceRow : Option ℕ

abbrev FoldedToolResultSources (Body : Type u) := JsMap ℕ (List (ToolContribution Body))

namespace FoldedToolResultSources

def append (sources : FoldedToolResultSources Body) (row : ℕ) (target source : NativeChatMessage Body)
    (blocks : List (NativeChatBlock Body)) (insertAt : ℕ) (sourceRow : Option ℕ) :
    FoldedToolResultSources Body :=
  let contributors :=
    (sources.get? row).getD [⟨target, target.blocks, 0, row + 1, some row⟩]
  sources.set row (contributors ++ [⟨source, blocks, target.blocks.length, insertAt, sourceRow⟩])

end FoldedToolResultSources

section Fold

structure ToolFoldState (Body : Type u) where
  output : List (NativeChatMessage Body)
  sources : FoldedToolResultSources Body
  mutableAssistantIndex : Option ℕ

def ToolFoldState.initial : ToolFoldState Body := ⟨[], JsMap.empty, none⟩

def recordFoldedPosition (target folded : NativeChatMessage Body) : NativeChatMessage Body :=
  match folded.journalPosition with
  | some position => { target with foldedJournalPosition := some position }
  | none => target

namespace ToolFoldState

variable (toLowerCase : Text → Text) (state : ToolFoldState Body)

def assistant? : Option (ℕ × NativeChatMessage Body) :=
  state.mutableAssistantIndex.bind fun index =>
    (state.output[index]?.filter fun message => message.role = .assistant).map (index, ·)

/-- Blocks of a message moved to the end of an assistant row. -/
def join (index : ℕ) (assistant message : NativeChatMessage Body)
    (blocks : List (NativeChatBlock Body)) (sourceRow : Option ℕ) : ToolFoldState Body :=
  { state with
    sources := state.sources.append index assistant message blocks state.output.length sourceRow
    output := state.output.set index
      (recordFoldedPosition { assistant with blocks := assistant.blocks ++ blocks } message) }

def push (message : NativeChatMessage Body) (mutableAssistantIndex : Option ℕ) :
    ToolFoldState Body :=
  { state with
    output := state.output ++ [message]
    mutableAssistantIndex := mutableAssistantIndex }

def open' (message : NativeChatMessage Body) : ToolFoldState Body :=
  state.push message
    (if message.role = .assistant then some state.output.length
      else if endsToolRun toLowerCase message then none
      else state.mutableAssistantIndex)

def foldMessage (message : NativeChatMessage Body) : ToolFoldState Body :=
  if message.unpairedToolResults then state.push message none
  else
    match state.assistant? with
    | some (index, assistant) =>
      if isHarnessSidecarToolMessage toLowerCase message then
        let joined := state.join index assistant message
          (message.blocks.filter NativeChatBlock.isToolResult) (some state.output.length)
        joined.push
          { message with blocks := message.blocks.filter fun block => !block.isToolResult }
          joined.mutableAssistantIndex
      else if isToolOnlyMessage message then state.join index assistant message message.blocks none
      else state.open' toLowerCase message
    | none =>
      if isToolOnlyMessage message ∧ state.mutableAssistantIndex.isSome then
        state.push message none
      else state.open' toLowerCase message

end ToolFoldState

end Fold

section Project

def rowUnpaired (message : NativeChatMessage Body) : List ℕ :=
  if message.unpairedToolResults || !message.blocks.any NativeChatBlock.isToolResult then []
  else unpairedToolResultIndices message.blocks

def filterByIndex (test : ℕ → Bool) (blocks : List (NativeChatBlock Body)) :
    List (NativeChatBlock Body) :=
  (blocks.zipIdx.filter fun entry => test entry.2).map Prod.fst

/-- A row without its unpaired results, unless nothing is left. -/
def retainedRow (message : NativeChatMessage Body) : Option (NativeChatMessage Body) :=
  let unpaired := rowUnpaired message
  if unpaired = [] then some message
  else
    let blocks := filterByIndex (fun index => !unpaired.contains index) message.blocks
    if blocks = [] then none else some { message with blocks := blocks }

/-- The named unpaired results of one contribution. -/
def orphanBlocks (unpaired : List ℕ) (contribution : ToolContribution Body) :
    List (NativeChatBlock Body) :=
  (filterByIndex (fun index => unpaired.contains (contribution.start + index))
      contribution.blocks).filter fun
    | .toolResult result => result.callId.isSome
    | _ => false

/-- ``unpaired-tool-results:${JSON.stringify([sourceId, occurrence])}`` -/
def generatedRowId (sourceId : Text) (occurrence : ℕ) : Text :=
  unitsOf "unpaired-tool-results:[" ++ quotedText sourceId ++ unitsOf "," ++
    decimalText occurrence ++ unitsOf "]"

/-- The first occurrence from one on whose id is free.  Of more occurrences than
there are ids, one is. -/
def freeOccurrence (allocated : List Text) (sourceId : Text) (occurrence : ℕ) : ℕ :=
  (((List.range (allocated.length + 1)).map (occurrence + ·)).find? fun candidate =>
    !allocated.contains (generatedRowId sourceId candidate)).getD occurrence

def orphanRow (source : NativeChatMessage Body) (id : Text)
    (blocks : List (NativeChatBlock Body)) : NativeChatMessage Body :=
  { source with id := id, role := .tool, blocks := blocks, unpairedToolResults := true }

structure OrphanScan (Body : Type u) where
  allocatedIds : List Text
  occurrences : JsMap Text ℕ
  orphans : JsMap ℕ (List (NativeChatMessage Body))

namespace OrphanScan

/-- The id of an orphan row: the source's own unless the source is still drawn. -/
def rowId (scan : OrphanScan Body) (sourceStillDraws : Bool) (sourceId : Text) :
    Text × JsMap Text ℕ :=
  if sourceStillDraws then
    let occurrence := freeOccurrence scan.allocatedIds sourceId
      ((scan.occurrences.get? sourceId).getD 0)
    (generatedRowId sourceId occurrence, scan.occurrences.set sourceId (occurrence + 1))
  else (sourceId, scan.occurrences)

def place (scan : OrphanScan Body) (insertAt : ℕ) (orphan : NativeChatMessage Body) :
    JsMap ℕ (List (NativeChatMessage Body)) :=
  scan.orphans.set insertAt ((scan.orphans.get? insertAt).getD [] ++ [orphan])

def contribute (retained : List (Option (NativeChatMessage Body))) (unpaired : List ℕ)
    (scan : OrphanScan Body) (contribution : ToolContribution Body) : OrphanScan Body :=
  let blocks := orphanBlocks unpaired contribution
  if blocks = [] then scan
  else
    let sourceStillDraws :=
      contribution.sourceRow.any fun row => (retained[row]?.join).isSome
    let (id, occurrences) := scan.rowId sourceStillDraws contribution.source.id
    { allocatedIds := scan.allocatedIds ++ [id]
      occurrences := occurrences
      orphans := scan.place contribution.insertAt (orphanRow contribution.source id blocks) }

end OrphanScan

def contributorsOf (sources : FoldedToolResultSources Body) (row : ℕ)
    (message : NativeChatMessage Body) : List (ToolContribution Body) :=
  (sources.get? row).getD [⟨message, message.blocks, 0, row + 1, some row⟩]

def scanOrphans (sources : FoldedToolResultSources Body)
    (sourceMessages rows : List (NativeChatMessage Body)) : OrphanScan Body :=
  (rows.zipIdx.filter fun (message, _) => !(rowUnpaired message).isEmpty).foldl
    (fun scan (message, row) =>
      (contributorsOf sources row message).foldl
        (OrphanScan.contribute (rows.map retainedRow) (rowUnpaired message)) scan)
    ⟨sourceMessages.map NativeChatMessage.id, JsMap.empty, JsMap.empty⟩

def project (sources : FoldedToolResultSources Body)
    (sourceMessages rows : List (NativeChatMessage Body)) : List (NativeChatMessage Body) :=
  if rows.all fun message => (rowUnpaired message).isEmpty then rows
  else
    let orphans := (scanOrphans sources sourceMessages rows).orphans
    let retained := rows.map retainedRow
    (List.range (retained.length + 1)).flatMap fun index =>
      (orphans.get? index).getD [] ++ (retained[index]?.join).toList

def foldToolMessages (toLowerCase : Text → Text) (messages : List (NativeChatMessage Body)) :
    List (NativeChatMessage Body) :=
  let folded := messages.foldl (ToolFoldState.foldMessage toLowerCase) ToolFoldState.initial
  project folded.sources messages folded.output

end Project

end OxeeUI.Chat
