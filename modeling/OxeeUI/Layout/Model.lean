import OxeeUI.Library.Json
import OxeeUI.Library.SplitTree
import OxeeUI.Library.Utf16

/-!
# The layout of a host's workspaces

Workspaces hold tabs, the groups that order them, the tree that places the groups, and
the data of the terminal panes.  A field the source may leave out is an `Option`; one
that may also hold `null` is an `Option` of an `Option`.
-/

namespace OxeeUI.Layout

open OxeeUI.Library

inductive SplitDirection where
  | horizontal
  | vertical
deriving DecidableEq

/-- How an area is divided; a missing ratio is an even split. -/
structure SplitLabel where
  direction : SplitDirection
  ratio : Option Rat
deriving DecidableEq

abbrev TerminalPaneLayoutNode := SplitTree String SplitLabel

abbrev TabGroupLayoutNode := SplitTree String SplitLabel

inductive ViewMode where
  | terminal
  | chat
deriving DecidableEq

/-- `Exclude<TabContentType, 'terminal'>`. -/
inductive ContentKind where
  | editor
  | diff
  | conflictReview
  | checkDetails
  | agentSession
  | browser
  | simulator
deriving DecidableEq

structure LayoutTerminalPanes where
  root : Option TerminalPaneLayoutNode
  chatLeafId : Option String
deriving DecidableEq

structure LayoutTabFields where
  /-- Tab-bar id. Terminal pane keys, layouts and records use `entityId`. -/
  id : String
  entityId : String
  createdAt : Int
  customTitle : Option String
  generatedTitle : Option (Option String)
  aiVaultTitle : JsValue
  quickCommandLabel : Option (Option String)
  color : Option String
  isPinned : Option Bool
  viewMode : Option ViewMode
  isPreview : Option Bool
  agentSessionAgent : Option String
deriving DecidableEq

structure LayoutTerminalCreation where
  defaultTitle : Option String
  shellOverride : Option String
  forceHostRuntime : Option Bool
  startupCwd : Option String
  launchAgent : Option String
deriving DecidableEq

structure LayoutTerminalTab extends LayoutTabFields where
  terminal : LayoutTerminalCreation
  panes : LayoutTerminalPanes
deriving DecidableEq

structure LayoutContentTab extends LayoutTabFields where
  kind : ContentKind
deriving DecidableEq

inductive LayoutTab where
  | terminal (tab : LayoutTerminalTab)
  | content (tab : LayoutContentTab)
deriving DecidableEq

namespace LayoutTab

def fields : LayoutTab → LayoutTabFields
  | .terminal tab => tab.toLayoutTabFields
  | .content tab => tab.toLayoutTabFields

/-- `{ ...tab, ...fields }`, with the fields both kinds of tab have. -/
def withFields (fields : LayoutTabFields) : LayoutTab → LayoutTab
  | .terminal tab => .terminal { tab with toLayoutTabFields := fields }
  | .content tab => .content { tab with toLayoutTabFields := fields }

def id (tab : LayoutTab) : String := tab.fields.id

def entityId (tab : LayoutTab) : String := tab.fields.entityId

/-- The kind of a tab that is not a terminal's. -/
def contentKind : LayoutTab → Option ContentKind
  | .terminal _ => none
  | .content tab => some tab.kind

def terminal? : LayoutTab → Option LayoutTerminalTab
  | .terminal tab => some tab
  | .content _ => none

@[simp] theorem id_terminal (tab : LayoutTerminalTab) : (terminal tab).id = tab.id := rfl
@[simp] theorem id_content (tab : LayoutContentTab) : (content tab).id = tab.id := rfl

@[simp]
theorem id_withFields (tab : LayoutTab) (fields : LayoutTabFields) :
    (tab.withFields fields).id = fields.id := by
  cases tab <;> rfl

end LayoutTab

structure LayoutGroup where
  id : String
  tabOrder : List String
deriving DecidableEq

/-- An open editor file minus its unsaved draft and what its tab and workspace hold. -/
structure LayoutEditorFile where
  filePath : String
  runtimeEnvironmentId : Option (Option String)
  externalSshTargetId : Option String
  fields : Json
deriving DecidableEq

/-- A browser tab minus the live page state its host view reports. -/
structure LayoutBrowserTab where
  id : String
  label : Option String
  sessionProfileId : Option (Option String)
  sessionPartition : Option (Option String)
  pageIds : Option (List String)
  createdAt : Int
deriving DecidableEq

structure LayoutClosedTab where
  closedAt : Int
  reason : Option String
deriving DecidableEq

structure TerminalGrid where
  cols : Int
  rows : Int
deriving DecidableEq

/-- A sleeping agent record minus what its pane key and workspace already say. -/
abbrev LayoutSleepingRecord := Json

/-- Pane data, keyed by a leaf id that is unique in the partition. -/
structure LayoutLeaf where
  /-- Absent while unbound. -/
  ptyId : Option String
  /-- Rises on each bind, retire and rollback of this pane in this process. In memory only. -/
  ptyGeneration : Option Int
  incarnationId : Option String
  title : Option String
  lastGrid : Option TerminalGrid
  /-- Slept pane record; mutually exclusive with `resume`. -/
  sleeping : Option LayoutSleepingRecord
  /-- Running-agent resume record; mutually exclusive with `sleeping`. -/
  resume : Option LayoutSleepingRecord
deriving DecidableEq

/-- `{}`: the data of a pane that has none. -/
def LayoutLeaf.empty : LayoutLeaf := ⟨none, none, none, none, none, none, none⟩

structure WorkspaceLayout where
  /-- Every persisted record names this worktree or folder id. -/
  worktreeId : String
  /-- Storage order only; groups define display order. -/
  tabs : List LayoutTab
  /-- Groups define the sole tab order and close when empty. -/
  groups : List LayoutGroup
  groupLayout : Option TabGroupLayoutNode
  editorFiles : Option (List LayoutEditorFile)
  /-- Tab id → what an editor tab shows beyond its file. The view is not saved. -/
  editorViews : JsMap String JsValue
  browserTabs : Option (List LayoutBrowserTab)
  /-- Leaf id → pane data. -/
  leaves : JsMap String LayoutLeaf
  /-- Tab id → closed terminal record. -/
  closedTerminalTabs : JsMap String LayoutClosedTab
deriving DecidableEq

def WorkspaceLayout.empty (worktreeId : String) : WorkspaceLayout where
  worktreeId := worktreeId
  tabs := []
  groups := []
  groupLayout := none
  editorFiles := none
  editorViews := .empty
  browserTabs := none
  leaves := .empty
  closedTerminalTabs := .empty

structure ClosedTerminalPane where
  ptyId : String
  incarnationId : String
  worktreeId : String
  closedAt : Int

structure WorkspaceLayoutRecords where
  defaultTabsAppliedByWorkspace : Option (JsMap String Unit)
  clientHostedBrowserPagesByWorkspace : Option (JsMap String JsValue)
  /-- Panes main dropped while their terminals may run on. -/
  closedTerminalPanesByPaneKey : Option (JsMap String ClosedTerminalPane)

/-- What only older builds read from today's documents. -/
structure LegacyLayoutPersistence where
  /-- Owned workspaces retain a row list even when empty. -/
  terminalRowOwners : JsMap String Unit
  /-- Advanced when terminal panes change so an older build's save merge defers to this layout. -/
  topologyRevisionByRepoId : Option (JsMap String Int)

structure WorkspaceLayoutModel where
  hostId : String
  /-- Keyed by the session key as stored. -/
  workspaces : JsMap String WorkspaceLayout
  records : WorkspaceLayoutRecords
  legacy : LegacyLayoutPersistence

def paneKeyOf (terminalTabId leafId : String) : String := terminalTabId ++ ":" ++ leafId

/-- `collectLayoutLeafIdsInOrder(tab.panes.root)`. -/
def leafIdsOf (tab : LayoutTerminalTab) : List String := SplitTree.leavesOf tab.panes.root

/-- The leaf ids of a tab's panes; only a terminal's tab has any. -/
def LayoutTab.leafIds : LayoutTab → List String
  | .terminal tab => leafIdsOf tab
  | .content _ => []

@[simp]
theorem LayoutTab.leafIds_withFields (tab : LayoutTab) (fields : LayoutTabFields) :
    (tab.withFields fields).leafIds = tab.leafIds := by
  cases tab <;> rfl

namespace WorkspaceLayout

def tabIds (workspace : WorkspaceLayout) : List String := workspace.tabs.map LayoutTab.id

def groupIds (workspace : WorkspaceLayout) : List String := workspace.groups.map LayoutGroup.id

def paneIds (workspace : WorkspaceLayout) : List String :=
  workspace.tabs.flatMap LayoutTab.leafIds

def leaf? (workspace : WorkspaceLayout) (leafId : String) : Option LayoutLeaf :=
  workspace.leaves.get? leafId

end WorkspaceLayout

/-- A map of the tabs, the last of those with an id. -/
def tabById (tabs : List LayoutTab) (id : String) : Option LayoutTab :=
  tabs.reverse.find? fun tab => tab.id = id

/-- What the code reads beside its arguments: the build's switch, and object identity. -/
structure Ambient where
  /-- `ORCA_LAYOUT_OWNER_IS_MAIN`. -/
  ownerIsMain : Bool
  /-- `left === right`; equal workspaces may be different objects. -/
  sameWorkspace : WorkspaceLayout → WorkspaceLayout → Bool
  same_eq : ∀ {left right}, sameWorkspace left right = true → left = right

end OxeeUI.Layout

/-!
## Which terminal a pane shows

A terminal is known by its pty id and, where the host reported one, its incarnation.
-/

namespace OxeeUI.Layout

open OxeeUI.Library

/-- Relay ids like `pty-1` repeat across relay restarts. -/
def isRelayOrdinal (relayPtyId : List Char) : Bool :=
  match afterStart? "pty-".toList relayPtyId with
  | none => false
  | some digits => digits ≠ [] ∧ digits.all Char.isDigit

/-- The two sides of the first `@@`. -/
def splitAtSeparator : List Char → Option (List Char × List Char)
  | '@' :: '@' :: relayPtyId => some ([], relayPtyId)
  | [] => none
  | character :: rest =>
    (splitAtSeparator rest).map fun parts => (character :: parts.1, parts.2)

/-- `parseAppSshPtyId(ptyId)?.relayPtyId`. -/
def relayPtyIdOf (ptyId : String) : Option (List Char) :=
  match (afterStart? "ssh:".toList ptyId.toList).bind splitAtSeparator with
  | none => none
  | some (connectionId, relayPtyId) =>
    if connectionId = [] ∨ relayPtyId = [] then none
    else (decodeUriComponent connectionId).map fun _ => relayPtyId

def isRepeatingRelayPtyId (ptyId : String) : Bool := (relayPtyIdOf ptyId).any isRelayOrdinal

structure Binding where
  ptyId : Option String
  incarnationId : Option String

def LayoutLeaf.binding (leaf : LayoutLeaf) : Binding := ⟨leaf.ptyId, leaf.incarnationId⟩

/-- Incarnations identify terminals; without both, the pty id does unless it repeats. -/
def isSameTerminal (left right : Binding) : Bool :=
  match left.ptyId with
  | none => false
  | some ptyId =>
    if right.ptyId ≠ some ptyId then false
    else
      match left.incarnationId, right.incarnationId with
      | some leftIncarnation, some rightIncarnation => leftIncarnation = rightIncarnation
      | _, _ => !isRepeatingRelayPtyId ptyId

theorem isSameTerminal_comm (left right : Binding) :
    isSameTerminal left right = isSameTerminal right left := by
  rcases left with ⟨_ | leftId, leftIncarnation⟩ <;>
    rcases right with ⟨_ | rightId, rightIncarnation⟩
  · rfl
  · simp [isSameTerminal]
  · simp [isSameTerminal]
  · by_cases same : leftId = rightId
    · subst same
      cases leftIncarnation <;> cases rightIncarnation <;> simp [isSameTerminal, eq_comm]
    · simp [isSameTerminal, same, Ne.symm same]

theorem ptyId_eq_of_isSameTerminal {left right : Binding}
    (same : isSameTerminal left right = true) :
    ∃ ptyId, left.ptyId = some ptyId ∧ right.ptyId = some ptyId := by
  rcases left with ⟨_ | leftId, leftIncarnation⟩
  · cases same
  · refine ⟨leftId, rfl, ?_⟩
    by_contra different
    simp [isSameTerminal, different] at same

end OxeeUI.Layout
