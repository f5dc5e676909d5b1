import OxeeUI.Layout.TabOrder

/-!
# Layout commands

Pure commands change layout only.  Each carries what its sender chose; ids it leaves out
are minted while it is applied.
-/

namespace OxeeUI.Layout

open OxeeUI.Library

/-- Restore or activation may request the first surface. -/
inductive InitialSurfaceReason where
  | restore
  | activation
deriving DecidableEq

/-- A split group is created with its first tab, so no empty group is stored. -/
structure NewGroupSplit where
  besideGroupId : String
  besideLastGroupId : Option String
  direction : GroupSide

structure LiveTerminalAdoption where
  ptyId : String
  /-- The execution the host observed. -/
  incarnationId : Option String
  /-- The pane the host last recorded for it. -/
  recordedPaneKey : Option String

/-- Desktop drag-out trusts the displayed PTY over stale bindings. -/
structure WindowPaneDetach where
  ptyId : Option String
  tabId : Option String
  startupCwd : Option String

structure TabPlacement where
  groupId : Option String
  afterTabId : Option String
  index : Option Int

structure CreateTerminalTab where
  tabId : Option String
  leafId : Option String
  groupId : Option String
  afterTabId : Option String
  index : Option Int
  title : Option String
  color : Option String
  viewMode : Option ViewMode
  createdAt : Option Int
  quickCommandLabel : Option String
  creation : LayoutTerminalCreation
  initial : Option InitialSurfaceReason
  adopt : Option LiveTerminalAdoption
  split : Option NewGroupSplit

structure SplitPane where
  tabId : String
  leafId : String
  direction : SplitDirection
  ratio : Option Rat
  newLeafId : Option String

structure ClosePane where
  tabId : String
  leafId : String
  /-- A user split-pane close refuses the last pane. -/
  userPaneClose : Bool

inductive CloseReason where
  | user
  | cleanup

structure CloseTabs where
  tabIds : List String
  force : Bool
  refusePinned : Bool
  /-- Editor tabs whose view reported an unsaved draft. -/
  dirtyTabIds : List String
  /-- Record the closed terminal tabs, so a late start cannot commit. -/
  recordClose : Option CloseReason

structure MoveTab where
  tabId : String
  toGroupId : String
  index : Int
  /-- Right after this tab (`null`: first) when it is in the target group; else `index`. -/
  afterTabId : Option (Option String)
  isPinned : Option Bool

structure SplitGroup where
  tabId : String
  besideGroupId : String
  direction : GroupSide

structure SetGroupRatios where
  groupLayout : Option TabGroupLayoutNode
  ratios : Option (List SplitRatioIntent)

structure SetPaneRatios where
  tabId : String
  root : Option TerminalPaneLayoutNode
  ratios : Option (List SplitRatioIntent)

structure MovePane where
  tabId : String
  leafId : String
  targetLeafId : String
  side : PaneSide

structure MovePaneToNewTab where
  tabId : String
  leafId : String
  groupId : Option String
  index : Option Int
  windowDetach : Option WindowPaneDetach

/-- What an agent-session's rename expects to find. -/
structure ExpectedTitle where
  entityId : String
  executionHostId : String
  customTitle : String

inductive TabTitle where
  | custom (title : Option String) (expected : Option ExpectedTitle)
  | generated (title : Option String) (replaceExisting : Bool)
  | aiVault (title : JsValue)

structure RenamePane where
  tabId : String
  leafId : String
  title : Option String

structure SetPaneGrid where
  tabId : String
  leafId : String
  grid : TerminalGrid

structure ReleasePaneTerminal where
  tabId : String
  leafId : String
  ptyId : String

structure SetTabProps where
  tabId : String
  color : Option (Option String)
  isPinned : Option Bool
  viewMode : Option ViewMode
  clearLaunchAgent : Bool

structure SetChatPane where
  tabId : String
  leafId : Option String

structure OpenEditorTab where
  tabId : Option String
  fileId : Option String
  contentType : ContentKind
  file : Option LayoutEditorFile
  view : Option JsValue
  groupId : Option String
  index : Option Int
  preview : Bool
  dirtyTabIds : List String
  createdAt : Option Int
  split : Option NewGroupSplit

structure OpenSimulatorTab where
  tabId : String
  groupId : Option String
  afterTabId : Option String
  index : Option Int
  createdAt : Option Int
  split : Option NewGroupSplit

/-- One tab of a move between workspaces, and the ids it takes there. -/
structure TabMove where
  tabId : String
  newTabId : String
  newEntityId : String
  view : Option JsValue

structure MoveTabToWorkspace where
  toWorkspace : String
  tabs : List TabMove
  groupId : String
  file : Option LayoutEditorFile

structure EditorFileRename where
  fileId : String
  newFileId : String
  /-- `fromFilePath` and the record, when the file is an edit-mode one. -/
  record : Option (String × LayoutEditorFile)
  view : Option JsValue

structure RenameEditorFiles where
  renames : List EditorFileRename
  /-- Other workspaces' renames of the same disk move: all are applied, or none. -/
  alsoIn : List (String × List EditorFileRename)

structure OpenBrowserTab where
  profileId : Option String
  sessionPartition : Option String
  groupId : Option String
  afterTabId : Option String
  index : Option Int
  /-- The id of a page that already runs; it names the tab too. -/
  pageId : Option String
  tabId : Option String
  browserTabId : Option String
  createdAt : Option Int
  browserCreatedAt : Option Int
  split : Option NewGroupSplit

structure BrowserPage where
  browserTabId : String
  pageId : String

structure ReplaceBrowserPage where
  browserTabId : String
  pageId : String
  newPageId : String

structure SetBrowserTabProfile where
  browserTabId : String
  profileId : Option String
  sessionPartition : Option String

structure OpenAgentSessionTab where
  tabId : Option String
  sessionId : String
  agent : String
  groupId : Option String
  afterTabId : Option String
  index : Option Int
  createdAt : Option Int
  initial : Option InitialSurfaceReason
  split : Option NewGroupSplit

structure Sleep where
  paneKeys : Option (List String)
  /-- Whole records: each names its pane key, tab and worktree. -/
  records : List Json
  /-- Records how each agent resumes and stops nothing. -/
  recordOnly : Bool

structure Wake where
  paneKeys : Option (List String)
  recordOnly : Bool

/-- The ids are the window's: it keys its spawn inputs by them before main answers. -/
structure DefaultTerminalTab where
  tabId : String
  leafId : String
  title : Option String
  color : Option String
  creation : LayoutTerminalCreation

inductive LayoutCommand where
  | createTerminalTab (command : CreateTerminalTab)
  | splitPane (command : SplitPane)
  | closePane (command : ClosePane)
  | closeTabs (command : CloseTabs)
  | moveTab (command : MoveTab)
  | splitGroup (command : SplitGroup)
  | setGroupRatios (command : SetGroupRatios)
  | setPaneRatios (command : SetPaneRatios)
  | movePane (command : MovePane)
  | equalizePanes (tabId : String)
  | movePaneToNewTab (command : MovePaneToNewTab)
  | renameTab (tabId : String) (title : TabTitle)
  | renamePane (command : RenamePane)
  | setPaneGrid (command : SetPaneGrid)
  | releasePaneTerminal (command : ReleasePaneTerminal)
  | setTabProps (command : SetTabProps)
  | setChatPane (command : SetChatPane)
  | openEditorTab (command : OpenEditorTab)
  | promotePreviewTab (tabId : String)
  | openSimulatorTab (command : OpenSimulatorTab)
  | moveTabToWorkspace (command : MoveTabToWorkspace)
  | renameEditorFiles (command : RenameEditorFiles)
  | openBrowserTab (command : OpenBrowserTab)
  | openBrowserPage (command : BrowserPage)
  | closeBrowserPage (command : BrowserPage)
  | replaceBrowserPage (command : ReplaceBrowserPage)
  | setBrowserTabProfile (command : SetBrowserTabProfile)
  | openAgentSessionTab (command : OpenAgentSessionTab)
  | startPane (paneKey : String)
  | restartPane (paneKey : String)
  | sleep (command : Sleep)
  | wake (command : Wake)
  | setDefaultTabsApplied
  | applyDefaultTabs (tabs : List DefaultTerminalTab)

inductive LayoutRefusalCode where
  | workspaceNotFound
  | tabNotFound
  | paneNotFound
  | groupNotFound
  | invalidParams
  | groupSetChanged
  | paneStructureChanged
  | samePane
  | lastPane
  | paneAlreadyBound
  | workspaceExists
  | tabExists
  | groupExists
  | pageExists
  | generatedTitleKept

/-- What the runtime does after applying: stop or start terminals. -/
structure LayoutEffects where
  stopPtyIds : List String := []
  startPaneKeys : List String := []

inductive CloseRefusal where
  | tabPinned
  | editorTabHasUnsavedDraft

structure RefusedClose where
  tabId : String
  code : CloseRefusal

structure CreatedTab where
  tabId : String
  leafId : String
  paneKey : String

structure LayoutCommandResult where
  tabId : Option String := none
  leafId : Option String := none
  paneKey : Option String := none
  groupId : Option String := none
  pageId : Option String := none
  /-- A window's drag-out: the terminal the moved pane shows, `null` when unbound. -/
  ptyId : Option (Option String) := none
  tabClosed : Option Bool := none
  alreadyClosed : Option Bool := none
  closed : Option (List String) := none
  refused : Option (List RefusedClose) := none
  slept : Option (List String) := none
  woken : Option (List String) := none
  /-- Old tab-bar id → new, for tabs a file rename re-ided. -/
  renamedTabIds : Option (List (String × String)) := none
  createdTabs : Option (List CreatedTab) := none

inductive PaneOutcome where
  | failed
  | exited

structure LayoutApplied where
  model : WorkspaceLayoutModel
  result : LayoutCommandResult
  effects : LayoutEffects
  /-- Leaf id → its new last outcome; `none` clears it. -/
  outcomes : List (String × Option PaneOutcome)

/-- `LayoutApplyResult<WorkspaceLayoutModel>`. -/
abbrev Applied := Except LayoutRefusalCode LayoutApplied

/-- The places of the code that mint an id; each mints at most once in a command. -/
inductive MintSite where
  | tab
  | group
  | browserTab
  | browserPage

structure LayoutContext where
  mintId : MintSite → String
  /-- Pane ids must be UUIDs. -/
  mintLeafId : String
  now : Int
  /-- True while a start of this pane is in flight. -/
  isStarting : String → Bool
  /-- Whether panes this commit drops are closed by a live edit. -/
  droppedLeafReason : Bool
  /-- A missing callback means live. -/
  isBindingLive : String → String → Bool
  /-- Whether the live bound terminal is an empty shell a hibernated agent left. -/
  retiresBinding : String → String → Bool

end OxeeUI.Layout
